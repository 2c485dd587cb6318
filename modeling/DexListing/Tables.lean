import DexListing.AccessFlags
import DexListing.Collect
import DexListing.Header
import DexListing.Reader

namespace DexListing

structure Pools where
  strings : Array String
  types : Array String

structure FieldRef where
  owner : String
  type : String
  name : String
  deriving DecidableEq

structure MethodRef where
  owner : String
  name : String
  proto : UInt16
  deriving DecidableEq

structure ClassDef where
  name : String
  access : AccessFlags
  superclass : Option String
  sourceFile : Option String
  dataOffset : UInt32
  deriving DecidableEq

structure Tables extends Pools where
  fields : Array FieldRef
  methods : Array MethodRef

def noIndex : UInt32 := 0xFFFFFFFF

def resolve (t : Table) (pool : Array String) (i : UInt32) : Except Error String :=
  match pool[i.toNat]? with
  | some s => .ok s
  | none => fail (.unresolved t i pool.size)

theorem resolve_eq_ok_iff {t : Table} {pool : Array String} {i : UInt32} {s : String} :
    resolve t pool i = .ok s ↔ pool[i.toNat]? = some s := by
  unfold resolve
  split <;> simp_all [fail]

theorem resolve_eq_error_iff {t : Table} {pool : Array String} {i : UInt32} {e : Error} :
    resolve t pool i = .error e ↔
      pool.size ≤ i.toNat ∧ e = ⟨.unresolved t i pool.size, []⟩ := by
  rw [resolve]
  split <;> simp_all [fail, eq_comm]
  next h => intro h'; simp [Array.getElem?_eq_none h'] at h

namespace Pools

def string (pools : Pools) (i : UInt32) : Except Error String :=
  resolve .strings pools.strings i

def type (pools : Pools) (i : UInt32) : Except Error String :=
  resolve .types pools.types i

end Pools

def optional (i : UInt32) (find : UInt32 → Except Error String) :
    Except Error (Option String) :=
  if i = noIndex then .ok none else (find i).map some

def FieldRef.parse (pools : Pools) (w : Vector UInt8 8) : Except Error FieldRef := do
  let owner ← pools.type (u16 w 0).toUInt32
  let type ← pools.type (u16 w 2).toUInt32
  let name ← pools.string (u32 w 4)
  return ⟨owner, type, name⟩

def MethodRef.parse (pools : Pools) (w : Vector UInt8 8) : Except Error MethodRef := do
  let owner ← pools.type (u16 w 0).toUInt32
  let name ← pools.string (u32 w 4)
  return ⟨owner, name, u16 w 2⟩

/-- Class, superclass and source file are resolved in this order. -/
def ClassDef.parse (pools : Pools) (w : Vector UInt8 32) : Except Error ClassDef := do
  let name ← within .className (pools.type (u32 w 0))
  let superclass ← within .superclass (optional (u32 w 8) pools.type)
  let sourceFile ← within .sourceFile (optional (u32 w 16) pools.string)
  return ⟨name, ⟨u32 w 4⟩, superclass, sourceFile, u32 w 24⟩

def FieldRef.reader (pools : Pools) : Reader FieldRef :=
  Reader.record 8 (FieldRef.parse pools)

def MethodRef.reader (pools : Pools) : Reader MethodRef :=
  Reader.record 8 (MethodRef.parse pools)

def ClassDef.reader (pools : Pools) : Reader ClassDef :=
  Reader.record 32 (ClassDef.parse pools)

def Extent.records {α : Type} (x : Extent) (t : Table) (read : Reader α) (b : Bytes) :
    Except Error (Array α) :=
  collect x.size.toNat fun i =>
    within (.entry t i) (read b (x.offset.toNat + t.width * i)).result

namespace TypeTable

def entry (b : Bytes) (x : Extent) (strings : Array String) (i : Nat) :
    Except Error String := do
  let id ← (Reader.word32 b (x.offset.toNat + 4 * i)).result
  within (.entry .types i) (resolve .strings strings id)

/-- Each id is resolved before the next is read. -/
def decode (b : Bytes) (x : Extent) (strings : Array String) : Except Error (Array String) :=
  collect x.size.toNat (entry b x strings)

end TypeTable

end DexListing
