import DexListing.Log
import DexListing.Tables

namespace DexListing

structure CodeUnit where
  opcode : UInt8
  packed : UInt8
  deriving DecidableEq

namespace CodeUnit

def a (u : CodeUnit) : UInt8 := u.packed &&& 0x0F

def b (u : CodeUnit) : UInt8 := u.packed >>> 4

def aa (u : CodeUnit) : UInt8 := u.packed

def literal4 (u : CodeUnit) : Int := (u.b.toNat : Int).bmod 16

def literal8 (u : CodeUnit) : Int := (u.aa.toNat : Int).bmod 256

end CodeUnit

inductive OperandKind where
  | none
  | rawValue
  | strings
  | types
  | fields
  | methods
  deriving DecidableEq

def OperandKind.name : OperandKind → String
  | .none => "None"
  | .rawValue => "RawValue"
  | .strings => "Strings"
  | .types => "Types"
  | .fields => "Fields"
  | .methods => "Methods"

inductive OperandSource where
  | none
  | raw (value : Int)
  | strings (pool : Array String)
  | types (pool : Array String)
  | fields (pool : Array FieldRef)
  | methods (pool : Array MethodRef)

structure Mismatch where
  expected : OperandKind
  actual : OperandKind
  deriving DecidableEq

def Mismatch.text (m : Mismatch) : String :=
  "internal error: entered unreachable code: opcode registered with " ++
    s!"{m.expected.name} context was rendered with {m.actual.name}"

structure Resolved (α : Type) where
  value : α
  warning : Option Record
  deriving DecidableEq

def Resolved.map {α β : Type} (f : α → β) (r : Resolved α) : Resolved β :=
  ⟨f r.value, r.warning⟩

def lookup {α β : Type} (t : Table) (pool : Array α) (i : UInt8) (view : α → β)
    (placeholder : β) : Resolved β :=
  match pool[i.toNat]? with
  | some x => ⟨view x, none⟩
  | none => ⟨placeholder, some (.missingOperand t i pool.size)⟩

namespace OperandSource

def kind : OperandSource → OperandKind
  | none => .none
  | raw _ => .rawValue
  | strings _ => .strings
  | types _ => .types
  | fields _ => .fields
  | methods _ => .methods

def value : OperandSource → Except Mismatch Int
  | raw v => .ok v
  | s => .error ⟨.rawValue, s.kind⟩

def string (s : OperandSource) (i : UInt8) : Except Mismatch (Resolved String) :=
  match s with
  | strings pool => .ok (lookup .strings pool i id (Table.strings.placeholder i))
  | s => .error ⟨.strings, s.kind⟩

def type (s : OperandSource) (i : UInt8) : Except Mismatch (Resolved String) :=
  match s with
  | types pool => .ok (lookup .types pool i id (Table.types.placeholder i))
  | s => .error ⟨.types, s.kind⟩

def fieldName (s : OperandSource) (i : UInt8) : Except Mismatch (Resolved String) :=
  match s with
  | fields pool => .ok (lookup .fields pool i FieldRef.name (Table.fields.placeholder i))
  | s => .error ⟨.fields, s.kind⟩

def method (s : OperandSource) (i : UInt8) : Except Mismatch (Resolved (String × String)) :=
  match s with
  | methods pool =>
      .ok (lookup .methods pool i (fun m => (m.owner, m.name))
        (Table.types.placeholder i, Table.methods.placeholder i))
  | s => .error ⟨.methods, s.kind⟩

end OperandSource

def Tables.operandSource (t : Tables) (kind : OperandKind) (u : CodeUnit) : OperandSource :=
  match kind with
  | .none => .none
  | .rawValue => .raw u.literal8
  | .strings => .strings t.strings
  | .types => .types t.types
  | .fields => .fields t.fields
  | .methods => .methods t.methods

theorem Tables.kind_operandSource (t : Tables) (kind : OperandKind) (u : CodeUnit) :
    (t.operandSource kind u).kind = kind := by
  cases kind <;> rfl

end DexListing
