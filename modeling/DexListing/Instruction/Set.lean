import DexListing.Instruction.Basic

namespace DexListing

structure InstructionSet where
  slots : Vector (Option Instruction) 256

namespace InstructionSet

def empty : InstructionSet :=
  ⟨Vector.replicate 256 none⟩

def get? (set : InstructionSet) (opcode : UInt8) : Option Instruction :=
  have inside : opcode.toNat < 256 := opcode.toNat_lt
  set.slots[opcode.toNat]

def insert (set : InstructionSet) (x : Instruction) : InstructionSet :=
  ⟨set.slots.set x.opcode.toNat (some x) x.opcode.toNat_lt⟩

def ofList (xs : List Instruction) : InstructionSet :=
  xs.foldl insert empty

def toList (set : InstructionSet) : List Instruction :=
  set.slots.toList.filterMap id

def size (set : InstructionSet) : Nat :=
  set.slots.toList.countP Option.isSome

def isEmpty (set : InstructionSet) : Bool :=
  set.size = 0

def named? (set : InstructionSet) (mnemonic : String) : Option Instruction :=
  set.toList.find? fun x => x.mnemonic = mnemonic

theorem get?_empty (opcode : UInt8) : empty.get? opcode = none := by
  simp [empty, get?]

theorem get?_insert (set : InstructionSet) (x : Instruction) (opcode : UInt8) :
    (set.insert x).get? opcode = if x.opcode = opcode then some x else set.get? opcode := by
  simp only [get?, insert, Vector.getElem_set, UInt8.toNat_inj]

theorem get?_foldl_insert (set : InstructionSet) (xs : List Instruction) (opcode : UInt8) :
    (xs.foldl insert set).get? opcode =
      (xs.reverse.find? fun x => x.opcode = opcode).or (set.get? opcode) := by
  induction xs generalizing set with
  | nil => rfl
  | cons x xs ih =>
      rw [List.foldl_cons, ih, get?_insert, List.reverse_cons, List.find?_append, Option.or_assoc]
      congr 1
      by_cases hx : x.opcode = opcode <;> simp [hx]

theorem get?_ofList (xs : List Instruction) (opcode : UInt8) :
    (ofList xs).get? opcode = xs.reverse.find? fun x => x.opcode = opcode := by
  rw [ofList, get?_foldl_insert, get?_empty, Option.or_none]

theorem mem_of_get?_ofList {xs : List Instruction} {opcode : UInt8} {x : Instruction}
    (h : (ofList xs).get? opcode = some x) : x ∈ xs := by
  rw [get?_ofList] at h
  exact List.mem_reverse.1 (List.mem_of_find?_eq_some h)

theorem opcode_of_get?_ofList {xs : List Instruction} {opcode : UInt8} {x : Instruction}
    (h : (ofList xs).get? opcode = some x) : x.opcode = opcode := by
  rw [get?_ofList] at h
  simpa using List.find?_some h

def Sound (set : InstructionSet) : Prop :=
  ∀ opcode x, set.get? opcode = some x → x.Sound

theorem sound_ofList {xs : List Instruction} (h : ∀ x ∈ xs, x.Sound) : (ofList xs).Sound :=
  fun _ x hx => h x (mem_of_get?_ofList hx)

end InstructionSet

end DexListing
