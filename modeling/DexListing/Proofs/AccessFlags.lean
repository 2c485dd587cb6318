import DexListing.Proofs.Container.Record
import Mathlib.Data.List.Nodup
import Mathlib.Data.Nat.Bitwise

namespace DexListing

namespace AccessFlags

section Masks

variable {flags : List (String × UInt32)} {v m : UInt32}

theorem clear_cons (flag : String × UInt32) (flags : List (String × UInt32)) (v : UInt32) :
    clear (flag :: flags) v = clear flags (v &&& ~~~flag.2) := rfl

theorem testBit_and_not (v m : UInt32) (k : Nat) :
    (v &&& ~~~m).toNat.testBit k = (v.toNat.testBit k && !m.toNat.testBit k) := by
  rw [UInt32.toNat_and, Nat.testBit_and]
  by_cases hk : k < 32
  · have flipped : (~~~m).toNat.testBit k = !m.toNat.testBit k := by
      change (~~~m.toBitVec).getLsbD k = !m.toBitVec.getLsbD k
      simp [hk]
    rw [flipped]
  · have absent : v.toNat.testBit k = false := by
      refine Nat.testBit_lt_two_pow (Nat.lt_of_lt_of_le v.toNat_lt ?_)
      exact Nat.pow_le_pow_right (by decide) (Nat.not_lt.1 hk)
    rw [absent]
    rfl

theorem testBit_clear (flags : List (String × UInt32)) (v : UInt32) (k : Nat) :
    (clear flags v).toNat.testBit k =
      (v.toNat.testBit k && flags.all fun flag => !flag.2.toNat.testBit k) := by
  induction flags generalizing v with
  | nil => simp [clear]
  | cons flag flags ih =>
      rw [clear_cons, ih, testBit_and_not, List.all_cons, Bool.and_assoc]

theorem and_eq_zero_iff :
    v &&& m = 0 ↔ ∀ k, v.toNat.testBit k = true → m.toNat.testBit k = false := by
  rw [← UInt32.toNat_inj, UInt32.toNat_and]
  constructor
  · intro h k hv
    have bit := congrArg (fun n => n.testBit k) h
    simpa [Nat.testBit_and, hv] using bit
  · intro h
    refine Nat.eq_of_testBit_eq fun k => ?_
    rw [Nat.testBit_and]
    cases hv : v.toNat.testBit k with
    | false => simp
    | true => simp [h k hv]

theorem toNat_and_add_and_not (v m : UInt32) :
    (v &&& m).toNat + (v &&& ~~~m).toNat = v.toNat := by
  have apart : (v.toBitVec &&& m.toBitVec) &&& (v.toBitVec &&& ~~~m.toBitVec) = 0#32 := by
    rw [BitVec.and_assoc, ← BitVec.and_assoc m.toBitVec, BitVec.and_comm m.toBitVec,
      BitVec.and_assoc v.toBitVec, BitVec.and_not_self]
    simp
  have both : v.toBitVec &&& m.toBitVec ||| v.toBitVec &&& ~~~m.toBitVec = v.toBitVec := by
    rw [← BitVec.and_or_distrib_left, BitVec.or_not_self, BitVec.and_allOnes]
  change (v.toBitVec &&& m.toBitVec).toNat + (v.toBitVec &&& ~~~m.toBitVec).toNat = v.toBitVec.toNat
  rw [← BitVec.toNat_add_of_and_eq_zero apart, BitVec.add_eq_or_of_and_eq_zero _ _ apart, both]

theorem and_not_and_of_apart {w : UInt32} (apart : m &&& w = 0) : v &&& ~~~m &&& w = v &&& w := by
  rw [and_eq_zero_iff] at apart
  rw [← UInt32.toNat_inj]
  refine Nat.eq_of_testBit_eq fun k => ?_
  rw [UInt32.toNat_and, Nat.testBit_and, testBit_and_not, UInt32.toNat_and, Nat.testBit_and]
  cases hm : m.toNat.testBit k with
  | false => simp
  | true => simp [apart k hm]

theorem and_eq_of_single (single : ∃ k < 32, m.toNat = 2 ^ k) (h : v &&& m ≠ 0) : v &&& m = m := by
  obtain ⟨k, -, hk⟩ := single
  rw [ne_eq, ← UInt32.toNat_inj, UInt32.toNat_and, hk, Nat.and_two_pow] at h
  rw [← UInt32.toNat_inj, UInt32.toNat_and, hk, Nat.and_two_pow]
  cases hv : v.toNat.testBit k with
  | false => simp [hv] at h
  | true => simp

theorem sum_filter_add_clear (single : ∀ flag ∈ flags, ∃ k < 32, flag.2.toNat = 2 ^ k)
    (apart : flags.Pairwise fun x y => x.2 &&& y.2 = 0) (v : UInt32) :
    ((flags.filter fun flag => v &&& flag.2 ≠ 0).map fun flag => flag.2.toNat).sum +
      (clear flags v).toNat = v.toNat := by
  -- Taking out the first mask changes none of the bits of the others.
  induction flags generalizing v with
  | nil => simp [clear]
  | cons flag flags ih =>
      rw [List.pairwise_cons] at apart
      have others : (flags.filter fun x => v &&& x.2 ≠ 0) =
          flags.filter fun x => v &&& ~~~flag.2 &&& x.2 ≠ 0 := by
        refine List.filter_congr fun x hx => ?_
        rw [and_not_and_of_apart (apart.1 x hx)]
      have rest := ih (fun x hx => single x (List.mem_cons_of_mem _ hx)) apart.2 (v &&& ~~~flag.2)
      have split := toNat_and_add_and_not v flag.2
      rw [List.filter_cons, others, clear_cons]
      by_cases h : v &&& flag.2 = 0
      · rw [if_neg (by simpa using h), rest]
        rw [h] at split
        simpa using split
      · rw [if_pos (by simpa using h), List.map_cons, List.sum_cons, Nat.add_assoc, rest]
        rwa [and_eq_of_single (single flag List.mem_cons_self) h] at split

end Masks

section Words

def Word (s : String) : Prop :=
  s ≠ "" ∧ ' ' ∉ s.toList ∧ '|' ∉ s.toList

instance (s : String) : Decidable (Word s) :=
  inferInstanceAs (Decidable (_ ∧ _ ∧ _))

def words (text : String) : List String :=
  (((text.toList.filter (· ≠ ' ')).splitOn '|').filter (· ≠ [])).map String.ofList

theorem filter_intercalate {parts : List (List Char)} (h : ∀ s ∈ parts, ' ' ∉ s) :
    ([' ', '|', ' '].intercalate parts).filter (· ≠ ' ') = ['|'].intercalate parts := by
  induction parts with
  | nil => rfl
  | cons s parts ih =>
      have unspaced : s.filter (· ≠ ' ') = s := by
        refine List.filter_eq_self.2 fun c hc => ?_
        exact decide_eq_true fun space => h s List.mem_cons_self (space ▸ hc)
      cases parts with
      | nil => simpa using unspaced
      | cons t parts =>
          rw [List.intercalate_cons_cons, List.intercalate_cons_cons, List.filter_append,
            List.filter_append, unspaced, ih fun u hu => h u (List.mem_cons_of_mem s hu)]
          rfl

theorem words_intercalate {parts : List String} (h : ∀ s ∈ parts, Word s) :
    words (" | ".intercalate parts) = parts := by
  cases parts with
  | nil => rfl
  | cons t parts =>
      have unspaced : ∀ s ∈ (t :: parts).map String.toList, ' ' ∉ s := by
        intro s hs space
        obtain ⟨u, hu, rfl⟩ := List.mem_map.1 hs
        exact (h u hu).2.1 space
      have unbarred : ∀ s ∈ (t :: parts).map String.toList, '|' ∉ s := by
        intro s hs bar
        obtain ⟨u, hu, rfl⟩ := List.mem_map.1 hs
        exact (h u hu).2.2 bar
      have written : ((t :: parts).map String.toList).filter (· ≠ []) =
          (t :: parts).map String.toList := by
        refine List.filter_eq_self.2 fun s hs => ?_
        obtain ⟨u, hu, rfl⟩ := List.mem_map.1 hs
        exact decide_eq_true fun empty => (h u hu).1 (String.toList_eq_nil_iff.1 empty)
      have separator : " | ".toList = [' ', '|', ' '] := rfl
      rw [words, String.toList_intercalate, separator, filter_intercalate unspaced,
        List.splitOn_intercalate _ unbarred (by simp), written, List.map_map]
      exact List.map_id'' (fun _ => String.ofList_toList) _

end Words

theorem single_of_mem_named : ∀ flag ∈ named, ∃ k < 32, flag.2.toNat = 2 ^ k := by
  decide

theorem apart_named : named.Pairwise fun x y => x.2 &&& y.2 = 0 := by
  decide

theorem nodup_names : (named.map Prod.fst).Nodup := by
  decide

theorem word_of_mem_named : ∀ flag ∈ named, Word flag.1 := by
  decide

variable {f g : AccessFlags} {flag : String × UInt32}

theorem toList_number (v : UInt32) : (number v).toList = '0' :: 'x' :: (hex v.toNat).toList := by
  change ("0x" ++ hex v.toNat).toList = _
  rw [String.toList_append]
  rfl

theorem word_number (v : UInt32) : Word (number v) := by
  have plain : ∀ d < 16, Nat.digitChar d ≠ ' ' ∧ Nat.digitChar d ≠ '|' := by decide
  have apart : ∀ c ∈ (number v).toList, c ≠ ' ' ∧ c ≠ '|' := by
    intro c hc
    rw [toList_number, List.mem_cons, List.mem_cons] at hc
    rcases hc with rfl | rfl | hc
    · decide
    · decide
    · obtain ⟨d, hd, rfl⟩ := exists_digit_of_mem_hex hc
      exact plain d hd
  refine ⟨fun empty => ?_, fun space => (apart _ space).1 rfl, fun bar => (apart _ bar).2 rfl⟩
  rw [← String.toList_eq_nil_iff, toList_number] at empty
  cases empty

theorem number_injective {v w : UInt32} (h : number v = number w) : v = w := by
  have digits := congrArg String.toList h
  rw [toList_number, toList_number, List.cons.injEq, List.cons.injEq, String.toList_inj] at digits
  exact UInt32.toNat_inj.1 (hex_injective digits.2.2)

theorem name_ne_number (member : flag ∈ named) (v : UInt32) : flag.1 ≠ number v := by
  have start : ∀ x ∈ named, x.1.toList.head? ≠ some '0' := by decide
  intro h
  refine start flag member ?_
  rw [h, toList_number]
  rfl

theorem mem_names_iff (member : flag ∈ named) :
    flag ∈ f.names ↔ f.bits &&& flag.2 = flag.2 := by
  have single := single_of_mem_named flag member
  rw [names, List.mem_filter, decide_eq_true_eq]
  constructor
  · exact fun h => and_eq_of_single single h.2
  · intro h
    refine ⟨member, ?_⟩
    obtain ⟨k, -, hk⟩ := single
    rw [h, ne_eq, ← UInt32.toNat_inj, hk]
    exact (Nat.two_pow_pos k).ne'

theorem mem_named_of_mem_names (h : flag ∈ f.names) : flag ∈ named :=
  List.mem_of_mem_filter h

theorem word_of_mem_parts {s : String} (h : s ∈ f.parts) : Word s := by
  rw [parts, List.mem_append] at h
  rcases h with h | h
  · obtain ⟨flag, member, rfl⟩ := List.mem_map.1 h
    exact word_of_mem_named flag (mem_named_of_mem_names member)
  · split at h
    next => cases h
    next =>
      rw [List.mem_singleton.1 h]
      exact word_number _

theorem words_text (f : AccessFlags) : words f.text = f.parts :=
  words_intercalate fun _ => word_of_mem_parts

theorem sum_names_add_unnamed (f : AccessFlags) :
    (f.names.map fun flag => flag.2.toNat).sum + f.unnamed.toNat = f.bits.toNat :=
  sum_filter_add_clear single_of_mem_named apart_named f.bits

theorem testBit_unnamed (f : AccessFlags) (k : Nat) :
    f.unnamed.toNat.testBit k = true ↔
      f.bits.toNat.testBit k = true ∧ ∀ flag ∈ named, flag.2.toNat.testBit k = false := by
  rw [unnamed, testBit_clear]
  simp

theorem mem_parts_number_iff : (∃ v, number v ∈ f.parts) ↔ f.unnamed ≠ 0 := by
  simp only [parts, List.mem_append, List.mem_map]
  constructor
  · rintro ⟨v, ⟨flag, member, same⟩ | printed⟩
    · exact absurd same (name_ne_number (mem_named_of_mem_names member) v)
    · intro none
      rw [if_pos none] at printed
      cases printed
  · intro some
    exact ⟨f.unnamed, .inr (by simp [some])⟩

theorem names_eq_filter (f : AccessFlags) :
    f.names = named.filter fun flag => flag.1 ∈ f.parts := by
  refine List.filter_congr fun flag member => decide_eq_decide.2 ?_
  rw [parts, List.mem_append]
  constructor
  · intro h
    exact .inl (List.mem_map_of_mem (List.mem_filter.2 ⟨member, decide_eq_true h⟩))
  · rintro (named | printed)
    · obtain ⟨other, set, same⟩ := List.mem_map.1 named
      have equal := List.inj_on_of_nodup_map nodup_names (mem_named_of_mem_names set) member same
      rw [equal, names, List.mem_filter, decide_eq_true_eq] at set
      exact set.2
    · split at printed
      next => cases printed
      next => exact absurd (List.mem_singleton.1 printed) (name_ne_number member _)

theorem eq_of_parts_eq (h : f.parts = g.parts) : f = g := by
  have names : f.names = g.names := by rw [names_eq_filter, names_eq_filter, h]
  have rest : f.unnamed = g.unnamed := by
    rw [parts, parts, names, List.append_cancel_left_eq] at h
    by_cases hf : f.unnamed = 0
    · by_cases hg : g.unnamed = 0
      · rw [hf, hg]
      · rw [if_pos hf, if_neg hg] at h
        cases h
    · by_cases hg : g.unnamed = 0
      · rw [if_neg hf, if_pos hg] at h
        cases h
      · rw [if_neg hf, if_neg hg] at h
        exact number_injective (List.cons.inj h).1
  have bits := sum_names_add_unnamed f
  rw [names, rest, sum_names_add_unnamed] at bits
  cases f
  cases g
  exact congrArg AccessFlags.mk (UInt32.toNat_inj.1 bits.symm)

theorem text_injective : Function.Injective text := by
  intro f g h
  refine eq_of_parts_eq ?_
  rw [← words_text, h, words_text]

theorem text_eq_empty_iff : f.text = "" ↔ f.bits = 0 := by
  have zero : (⟨0⟩ : AccessFlags).text = "" := by decide
  rw [← zero, text_injective.eq_iff]
  constructor
  · rintro rfl
    rfl
  · intro none
    cases f
    exact congrArg AccessFlags.mk none

theorem unnamed_apart (f : AccessFlags) (member : flag ∈ f.names) : flag.2 &&& f.unnamed = 0 := by
  rw [and_eq_zero_iff]
  intro k set
  rw [← Bool.not_eq_true, testBit_unnamed]
  rintro ⟨-, unset⟩
  rw [unset flag (mem_named_of_mem_names member)] at set
  cases set

theorem exists_unnamed_bit_iff (f : AccessFlags) :
    f.unnamed ≠ 0 ↔ ∃ k, f.bits.toNat.testBit k = true ∧
      ∀ flag ∈ named, flag.2.toNat.testBit k = false := by
  simp only [← testBit_unnamed]
  constructor
  · intro some
    exact Nat.exists_testBit_of_ne_zero fun none => some (UInt32.toNat_inj.1 none)
  · rintro ⟨k, hk⟩ none
    rw [none] at hk
    simp at hk

/-- The word of a record is kept as it stands. Its text names the bits that have a name and
writes the others as one number, so that no two words have the same text. -/
theorem text_keeps_every_bit :
    (∀ pools b p x, (ClassDef.reader pools b p).result = .ok x →
      WordStands b (p + 4) x.access.bits) ∧
      (∀ f : AccessFlags,
        f.text = " | ".intercalate f.parts ∧
          f.names.Sublist named ∧
          (∀ flag ∈ named, flag ∈ f.names ↔ f.bits &&& flag.2 = flag.2) ∧
          f.names.Pairwise (fun x y => x.2 &&& y.2 = 0) ∧
          (∀ flag ∈ f.names, flag.2 &&& f.unnamed = 0) ∧
          (f.names.map fun flag => flag.2.toNat).sum + f.unnamed.toNat = f.bits.toNat ∧
          ((∃ v, number v ∈ f.parts) ↔ ∃ k, f.bits.toNat.testBit k = true ∧
            ∀ flag ∈ named, flag.2.toNat.testBit k = false) ∧
          (f.text = "" ↔ f.bits = 0)) ∧
      Function.Injective text := by
  refine ⟨fun pools b p x read => ?_, fun f => ?_, text_injective⟩
  · obtain ⟨inside, stands⟩ := ClassDef.reader_eq_ok_iff.1 read
    exact wordStands_iff.2 ⟨by omega, stands.access⟩
  · refine ⟨rfl, List.filter_sublist, fun _ => mem_names_iff, apart_named.filter _,
      fun _ => f.unnamed_apart, f.sum_names_add_unnamed, ?_, text_eq_empty_iff⟩
    exact mem_parts_number_iff.trans f.exists_unnamed_bit_iff

theorem text_keeps_every_bit_of_record :
    let pools : Pools := ⟨#[], #["LMain;"]⟩
    let b : Bytes := #[7, 0, 0, 0, 0, 0x21, 0, 1, 0x80] ++ Array.replicate 24 0xFF
    let x : ClassDef := ⟨"LMain;", ⟨0x80010021⟩, none, none, 0xFFFFFFFF⟩
    (ClassDef.reader pools b 1).result = .ok x ∧ WordStands b 5 0x80010021 ∧
      x.access.text = "PUBLIC | 0x80010020" ∧
      ∀ f : AccessFlags, f.text = "PUBLIC | 0x80010020" → f = x.access := by
  intro pools b x
  have read : (ClassDef.reader pools b 1).result = .ok x := by decide +kernel
  have printed : x.access.text = "PUBLIC | 0x80010020" := by decide +kernel
  obtain ⟨kept, -, injective⟩ := text_keeps_every_bit
  exact ⟨read, kept pools b 1 x read, printed, fun f h => injective (h.trans printed.symm)⟩

end AccessFlags

end DexListing
