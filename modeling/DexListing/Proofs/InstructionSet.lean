import DexListing.Instruction.Dalvik
import Mathlib.Data.Finset.Card

namespace DexListing

namespace InstructionSet

variable {set : InstructionSet} {xs : List Instruction} {x : Instruction} {opcode : UInt8}
  {mnemonic : String}

def Stores (set : InstructionSet) (x : Instruction) : Prop :=
  set.get? x.opcode = some x

def Aligned (set : InstructionSet) : Prop :=
  ∀ opcode x, set.get? opcode = some x → x.opcode = opcode

structure LastWins (set : InstructionSet) (xs : List Instruction) : Prop where
  get?_eq_some : ∀ opcode x, set.get? opcode = some x ↔
    ∃ before after, xs = before ++ x :: after ∧ x.opcode = opcode ∧
      ∀ y ∈ after, y.opcode ≠ opcode
  get?_eq_none : ∀ opcode, set.get? opcode = none ↔ ∀ x ∈ xs, x.opcode ≠ opcode
  own_slot : set.Aligned
  listed : ∀ x, x ∈ set.toList ↔ set.Stores x
  ascending : set.toList.Pairwise fun x y => x.opcode < y.opcode
  size : set.size = (xs.map Instruction.opcode).toFinset.card
  isEmpty : set.isEmpty = true ↔ xs = []
  named?_eq_some : ∀ mnemonic x, set.named? mnemonic = some x ↔
    set.Stores x ∧ x.mnemonic = mnemonic ∧
      ∀ y, set.Stores y → y.mnemonic = mnemonic → x.opcode ≤ y.opcode
  named?_eq_none : ∀ mnemonic, set.named? mnemonic = none ↔
    ∀ x ∈ xs, x.mnemonic = mnemonic → ¬ set.Stores x

theorem aligned_ofList (xs : List Instruction) : (ofList xs).Aligned :=
  fun _ _ => opcode_of_get?_ofList

theorem get?_ofNat {i : Nat} (hi : i < 256) : set.get? (UInt8.ofNat i) = set.slots[i] := by
  have toNat : (UInt8.ofNat i).toNat = i := UInt8.toNat_ofNat_of_lt hi
  simp only [get?, toNat]

theorem ext_get? {s t : InstructionSet} (h : ∀ opcode, s.get? opcode = t.get? opcode) : s = t := by
  cases s with
  | mk s =>
      cases t with
      | mk t =>
          congr 1
          apply Vector.ext
          intro i hi
          have same := h (UInt8.ofNat i)
          rwa [get?_ofNat hi, get?_ofNat hi] at same

theorem get?_ofList_eq_some_iff :
    (ofList xs).get? opcode = some x ↔
      ∃ before after, xs = before ++ x :: after ∧ x.opcode = opcode ∧
        ∀ y ∈ after, y.opcode ≠ opcode := by
  rw [get?_ofList, List.find?_eq_some_iff_append]
  simp only [decide_eq_true_eq, Bool.not_eq_true', decide_eq_false_iff_not]
  constructor
  · rintro ⟨hx, after, before, split, others⟩
    refine ⟨before.reverse, after.reverse, ?_, hx, fun y hy => others y (List.mem_reverse.1 hy)⟩
    rw [← List.reverse_reverse xs, split]
    simp
  · rintro ⟨before, after, rfl, hx, others⟩
    refine ⟨hx, after.reverse, before.reverse, by simp, fun y hy => ?_⟩
    exact others y (List.mem_reverse.1 hy)

theorem get?_ofList_eq_none_iff :
    (ofList xs).get? opcode = none ↔ ∀ x ∈ xs, x.opcode ≠ opcode := by
  simp [get?_ofList]

theorem get?_ofList_append (xs ys : List Instruction) (opcode : UInt8) :
    (ofList (xs ++ ys)).get? opcode = ((ofList ys).get? opcode).or ((ofList xs).get? opcode) := by
  rw [get?_ofList, get?_ofList, get?_ofList, List.reverse_append, List.find?_append]

theorem mem_toList_iff_exists : x ∈ set.toList ↔ ∃ opcode, set.get? opcode = some x := by
  simp only [toList, List.mem_filterMap, id, exists_eq_right, Vector.mem_toList_iff,
    Vector.mem_iff_getElem]
  constructor
  · rintro ⟨i, hi, hx⟩
    exact ⟨UInt8.ofNat i, (get?_ofNat hi).trans hx⟩
  · rintro ⟨opcode, hx⟩
    exact ⟨opcode.toNat, opcode.toNat_lt, hx⟩

namespace Aligned

variable (aligned : set.Aligned)

include aligned

theorem stores (h : set.get? opcode = some x) : set.Stores x := by
  rw [Stores, aligned opcode x h, h]

theorem mem_toList_iff : x ∈ set.toList ↔ set.Stores x := by
  rw [mem_toList_iff_exists]
  exact ⟨fun ⟨_, h⟩ => aligned.stores h, fun stored => ⟨x.opcode, stored⟩⟩

theorem pairwise_toList : set.toList.Pairwise fun x y => x.opcode < y.opcode := by
  rw [toList, List.pairwise_filterMap, List.pairwise_iff_getElem]
  intro i j hi hj less x hx y hy
  rw [Vector.length_toList] at hi hj
  have stands {k : Nat} {z : Instruction} (hk : k < 256) (hz : set.slots[k] = some z) :
      z.opcode.toNat = k := by
    rw [aligned (UInt8.ofNat k) z ((get?_ofNat hk).trans hz)]
    exact UInt8.toNat_ofNat_of_lt hk
  rw [UInt8.lt_iff_toNat_lt, stands hi hx, stands hj hy]
  exact less

theorem lt_of_split {before after : List Instruction}
    (split : set.toList = before ++ x :: after) :
    (∀ y ∈ before, y.opcode < x.opcode) ∧ ∀ y ∈ after, x.opcode < y.opcode := by
  have ascending := aligned.pairwise_toList
  rw [split, List.pairwise_append, List.pairwise_cons] at ascending
  exact ⟨fun y hy => ascending.2.2 y hy x List.mem_cons_self, ascending.2.1.1⟩

theorem nodup_opcodes : (set.toList.map Instruction.opcode).Nodup := by
  rw [List.Nodup, List.pairwise_map]
  exact aligned.pairwise_toList.imp fun less => UInt8.ne_of_lt less

theorem ofList_toList : ofList set.toList = set := by
  apply ext_get?
  intro opcode
  apply Option.ext
  intro x
  constructor
  · intro h
    have stored := aligned.mem_toList_iff.1 (mem_of_get?_ofList h)
    rwa [Stores, opcode_of_get?_ofList h] at stored
  · intro h
    have hx := aligned opcode x h
    have stored : x ∈ set.toList := mem_toList_iff_exists.2 ⟨opcode, h⟩
    obtain ⟨before, after, split⟩ := List.append_of_mem stored
    refine get?_ofList_eq_some_iff.2 ⟨before, after, split, hx, fun y hy => ?_⟩
    rw [← hx]
    exact (UInt8.ne_of_lt ((aligned.lt_of_split split).2 y hy)).symm

theorem named?_eq_some_iff :
    set.named? mnemonic = some x ↔
      set.Stores x ∧ x.mnemonic = mnemonic ∧
        ∀ y, set.Stores y → y.mnemonic = mnemonic → x.opcode ≤ y.opcode := by
  rw [named?, List.find?_eq_some_iff_append]
  simp only [decide_eq_true_eq, Bool.not_eq_true', decide_eq_false_iff_not]
  constructor
  · rintro ⟨named, before, after, split, others⟩
    refine ⟨aligned.mem_toList_iff.1 (by simp [split]), named, fun y stored same => ?_⟩
    have member := aligned.mem_toList_iff.2 stored
    rw [split, List.mem_append, List.mem_cons] at member
    rcases member with earlier | rfl | later
    · exact absurd same (others y earlier)
    · exact UInt8.le_refl _
    · exact UInt8.le_of_lt ((aligned.lt_of_split split).2 y later)
  · rintro ⟨stored, named, least⟩
    obtain ⟨before, after, split⟩ := List.append_of_mem (aligned.mem_toList_iff.2 stored)
    refine ⟨named, before, after, split, fun y earlier same => ?_⟩
    have stored : set.Stores y := aligned.mem_toList_iff.1 (by simp [split, earlier])
    have less := (aligned.lt_of_split split).1 y earlier
    exact UInt8.not_le.2 less (least y stored same)

theorem named?_eq_none_iff :
    set.named? mnemonic = none ↔ ∀ x, set.Stores x → x.mnemonic ≠ mnemonic := by
  simp only [named?, List.find?_eq_none, decide_eq_true_eq, aligned.mem_toList_iff]

end Aligned

theorem length_toList (set : InstructionSet) : set.toList.length = set.size :=
  List.length_filterMap_eq_countP

theorem Stores.mem (stored : (ofList xs).Stores x) : x ∈ xs :=
  mem_of_get?_ofList stored

theorem mem_opcodes_toList_iff :
    opcode ∈ (ofList xs).toList.map Instruction.opcode ↔ opcode ∈ xs.map Instruction.opcode := by
  have aligned := aligned_ofList xs
  simp only [List.mem_map, aligned.mem_toList_iff]
  constructor
  · rintro ⟨x, stored, hx⟩
    exact ⟨x, stored.mem, hx⟩
  · rintro ⟨x, member, hx⟩
    have used : (ofList xs).get? opcode ≠ none := fun h => get?_ofList_eq_none_iff.1 h x member hx
    obtain ⟨y, hy⟩ := Option.ne_none_iff_exists'.1 used
    exact ⟨y, aligned.stores hy, aligned opcode y hy⟩

theorem size_ofList (xs : List Instruction) :
    (ofList xs).size = (xs.map Instruction.opcode).toFinset.card := by
  have nodup := (aligned_ofList xs).nodup_opcodes
  rw [← length_toList, ← List.length_map (f := Instruction.opcode),
    ← List.toFinset_card_of_nodup nodup]
  congr 1
  ext opcode
  rw [List.mem_toFinset, List.mem_toFinset, mem_opcodes_toList_iff]

theorem isEmpty_ofList_iff : (ofList xs).isEmpty = true ↔ xs = [] := by
  rw [isEmpty, decide_eq_true_eq, size_ofList, Finset.card_eq_zero, List.toFinset_eq_empty_iff,
    List.map_eq_nil_iff]

theorem named?_ofList_eq_none_iff :
    (ofList xs).named? mnemonic = none ↔
      ∀ x ∈ xs, x.mnemonic = mnemonic → ¬ (ofList xs).Stores x := by
  rw [(aligned_ofList xs).named?_eq_none_iff]
  constructor
  · exact fun none x _ same stored => none x stored same
  · exact fun none x stored same => none x stored.mem same stored

theorem lastWins_ofList (xs : List Instruction) : (ofList xs).LastWins xs where
  get?_eq_some := fun _ _ => get?_ofList_eq_some_iff
  get?_eq_none := fun _ => get?_ofList_eq_none_iff
  own_slot := aligned_ofList xs
  listed := fun _ => (aligned_ofList xs).mem_toList_iff
  ascending := (aligned_ofList xs).pairwise_toList
  size := size_ofList xs
  isEmpty := isEmpty_ofList_iff
  named?_eq_some := fun _ _ => (aligned_ofList xs).named?_eq_some_iff
  named?_eq_none := fun _ => named?_ofList_eq_none_iff

end InstructionSet

namespace Dalvik

theorem nodup_mnemonics : (instructions.map Instruction.mnemonic).Nodup := by
  decide +kernel

theorem named?_mnemonic {opcode : UInt8} {x : Instruction}
    (h : instructionSet.get? opcode = some x) : instructionSet.named? x.mnemonic = some x := by
  have aligned : instructionSet.Aligned := InstructionSet.aligned_ofList instructions
  have stored := aligned.stores h
  refine aligned.named?_eq_some_iff.2 ⟨stored, rfl, fun y other same => ?_⟩
  have equal := List.inj_on_of_nodup_map nodup_mnemonics other.mem stored.mem same
  exact equal ▸ UInt8.le_refl _

end Dalvik

namespace InstructionSet

/-- A set keeps the last instruction of each opcode, so what is listed later is looked up first
and a set is made again of what it lists. No registered mnemonic is shared. -/
theorem ofList_keeps_the_last (xs ys : List Instruction) :
    (ofList xs).LastWins xs ∧
      (∀ opcode, (ofList (xs ++ ys)).get? opcode =
        ((ofList ys).get? opcode).or ((ofList xs).get? opcode)) ∧
      ofList (ofList xs).toList = ofList xs ∧
      ∀ opcode x, Dalvik.instructionSet.get? opcode = some x →
        Dalvik.instructionSet.named? x.mnemonic = some x :=
  ⟨lastWins_ofList xs, get?_ofList_append xs ys, (aligned_ofList xs).ofList_toList,
    fun _ _ => Dalvik.named?_mnemonic⟩

-- The only instruction of its mnemonic gives way to one that comes later.
example : let x : Instruction := ⟨0x0F, "return", .none, Dalvik.returnRegister, none⟩
    let set := ofList [x, { x with mnemonic := "yield" }]
    set.size = 1 ∧ set.named? "return" = none := by
  decide +kernel

end InstructionSet

end DexListing
