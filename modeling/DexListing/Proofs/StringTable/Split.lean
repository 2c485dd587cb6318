import DexListing.Proofs.StringTable.Entries
import DexListing.StringTable

namespace DexListing.StringTable

variable {b : Bytes} {slots : Array String} {x y : Except Error Entries} {z : Entries} {d e : Error}

theorem fillFrom_eq_extend {i : Nat} {found : Entries} {offs : List UInt32}
    (full : i + offs.length = found.values.size) :
    fillFrom b i found offs = extend b ⟨found.values.extract 0 i, found.lossy⟩ offs := by
  -- The slots before the position hold what has been found so far.
  induction offs generalizing i found with
  | nil =>
      have whole : found.values.extract 0 i = found.values := by
        rw [show i = found.values.size from full, Array.extract_size]
      rw [fillFrom, extend, whole]
  | cons off offs ih =>
      rw [List.length_cons] at full
      have inside : i < found.values.size := by omega
      rw [fillFrom, dif_pos inside, extend]
      cases entry b off with
      | error e => rfl
      | ok t =>
          have filled : (found.values.set i t.value inside).extract 0 (i + 1) =
              (found.values.extract 0 i).push t.value := by
            rw [Array.extract_succ_right (Nat.zero_lt_succ i) (by simpa using inside),
              Array.getElem_set_self, Array.extract_set, dif_neg (Nat.not_lt_zero i),
              dif_neg (by omega)]
          dsimp only
          rw [ih (by simp only [Array.size_set]; omega), filled]
          rfl

theorem fill_eq_entries {offs : List UInt32} (full : slots.size = offs.length) :
    fill b slots offs = entries b offs := by
  rw [fill, fillFrom_eq_extend (by simpa using full.symm), Array.extract_zero]
  rfl

namespace Split

def Fails (b : Bytes) (s : Split) : Prop :=
  ∃ off ∈ s.offsets, ∃ e, entry b off = .error e

/-- Of two sides that both fail, the left one counts, down to the first chunk that fails. -/
def PrefersLeft (b : Bytes) : Split → Prop
  | leaf _ => True
  | fork preferLeft left right =>
    (left.Fails b → left.PrefersLeft b ∧ (right.Fails b → preferLeft = true)) ∧
      (¬ left.Fails b → right.PrefersLeft b)

theorem fill_eq_entries (s : Split) (full : slots.size = s.offsets.length) :
    s.fill b slots = s.entries b := by
  induction s generalizing slots with
  | leaf offsets => exact StringTable.fill_eq_entries full
  | fork preferLeft left right ihl ihr =>
      rw [offsets, List.length_append] at full
      rw [fill, entries, ihl, ihr]
      · rw [Array.size_extract]
        omega
      · rw [Array.size_extract]
        omega

theorem join_eq_ok_iff {preferLeft : Bool} :
    join preferLeft x y = .ok z ↔ ∃ u v, x = .ok u ∧ y = .ok v ∧ u.append v = z := by
  cases x <;> cases y <;> simp [join]

theorem join_eq_error {preferLeft : Bool} (h : join preferLeft x y = .error e) :
    x = .error e ∨ y = .error e := by
  cases x <;> cases y <;> cases preferLeft <;> simp_all [join]

theorem entries_eq_ok_iff {s : Split} :
    s.entries b = .ok z ↔ StringTable.entries b s.offsets = .ok z := by
  induction s generalizing z with
  | leaf offsets => rfl
  | fork preferLeft left right ihl ihr =>
      rw [entries, offsets, entries_append, join_eq_ok_iff]
      simp only [bind_eq_ok_iff, ihl, ihr, pure, Except.pure, Except.ok.injEq]
      constructor
      · rintro ⟨u, v, hu, hv, joined⟩
        exact ⟨u, hu, v, hv, joined⟩
      · rintro ⟨u, hu, v, hv, joined⟩
        exact ⟨u, v, hu, hv, joined⟩

theorem exists_fails_of_error {s : Split} (h : s.entries b = .error e) :
    ∃ off ∈ s.offsets, entry b off = .error e := by
  induction s with
  | leaf offsets =>
      obtain ⟨before, off, after, rfl, -, fails⟩ := entries_eq_error_iff.1 h
      exact ⟨off, List.mem_append_right _ List.mem_cons_self, fails⟩
  | fork preferLeft left right ihl ihr =>
      cases join_eq_error h with
      | inl hl =>
          obtain ⟨off, member, fails⟩ := ihl hl
          exact ⟨off, List.mem_append_left _ member, fails⟩
      | inr hr =>
          obtain ⟨off, member, fails⟩ := ihr hr
          exact ⟨off, List.mem_append_right _ member, fails⟩

theorem fails_iff {s : Split} : s.Fails b ↔ ∃ e, StringTable.entries b s.offsets = .error e := by
  simp only [entries_eq_error_iff]
  constructor
  · exact exists_firstFails
  · rintro ⟨e, before, off, after, whole, -, fails⟩
    exact ⟨off, whole ▸ List.mem_append_right _ List.mem_cons_self, e, fails⟩

theorem entries_of_prefersLeft {s : Split} (h : s.PrefersLeft b) :
    s.entries b = StringTable.entries b s.offsets := by
  induction s with
  | leaf offsets => rfl
  | fork preferLeft left right ihl ihr =>
      obtain ⟨failing, reading⟩ := h
      rw [entries, offsets, entries_append]
      cases hl : StringTable.entries b left.offsets with
      | error d =>
          obtain ⟨preferred, first⟩ := failing (fails_iff.2 ⟨d, hl⟩)
          rw [ihl preferred, hl]
          cases hr : right.entries b with
          | ok v => rfl
          | error e =>
              -- The right side has a text that fails as well, so the fork has to prefer the left.
              obtain ⟨off, member, fails⟩ := exists_fails_of_error hr
              rw [first ⟨off, member, e, fails⟩]
              rfl
      | ok u =>
          have reads : ¬ left.Fails b := by simp [fails_iff, hl]
          rw [entries_eq_ok_iff.2 hl, ihr (reading reads)]
          cases StringTable.entries b right.offsets <;> rfl

theorem fill_agrees_with_sequential (b : Bytes) (s : Split) (slots : Array String)
    (full : slots.size = s.offsets.length) :
    StringTable.fill b slots s.offsets = StringTable.entries b s.offsets ∧
      ((∀ off ∈ s.offsets, ∃ t, entry b off = .ok t) →
        ∃ texts : List Text, List.Forall₂ (fun off t => entry b off = .ok t) s.offsets texts ∧
          let found : Entries := ⟨(texts.map Text.value).toArray, texts.countP Text.lossy⟩
          StringTable.fill b slots s.offsets = .ok found ∧ s.fill b slots = .ok found) ∧
      (s.Fails b →
        ∃ d e, FirstFails b s.offsets e ∧ StringTable.fill b slots s.offsets = .error e ∧
          s.fill b slots = .error d ∧ (∃ off ∈ s.offsets, entry b off = .error d) ∧
          (s.PrefersLeft b → d = e)) := by
  rw [StringTable.fill_eq_entries full, fill_eq_entries s full]
  refine ⟨rfl, fun reads => ?_, fun fails => ?_⟩
  · obtain ⟨texts, found⟩ := exists_texts reads
    have whole := entries_of_texts found
    exact ⟨texts, found, whole, entries_eq_ok_iff.2 whole⟩
  · obtain ⟨e, whole⟩ := fails_iff.1 fails
    cases split : s.entries b with
    | ok z =>
        rw [entries_eq_ok_iff, whole] at split
        cases split
    | error d =>
        refine ⟨d, e, entries_eq_error_iff.1 whole, whole, rfl, exists_fails_of_error split, ?_⟩
        intro preferred
        rw [entries_of_prefersLeft preferred, whole] at split
        exact (Except.error.inj split).symm

theorem fill_agrees_with_sequential_shared :
    let b : Bytes := #[1, 0x61, 1, 0xFF, 5]
    let slots : Array String := #["", "", "", ""]
    let whole := fork false (leaf [0]) (fork false (leaf []) (leaf [2, 0, 2]))
    let cut (preferLeft : Bool) := fork preferLeft (fork false (leaf [0]) (leaf [4])) (leaf [2, 9])
    let first : Error := ⟨.outOfBounds 5 5 5, [.stringData 4]⟩
    let second : Error := ⟨.unfinishedVarint 9, [.stringData 9]⟩
    whole.fill b slots = .ok ⟨#["a", "\uFFFD", "a", "\uFFFD"], 2⟩ ∧
      StringTable.fill b slots [0, 4, 2, 9] = .error first ∧
      (cut true).fill b slots = .error first ∧ (cut false).fill b slots = .error second := by
  intro b slots whole cut first second
  have a : entry b 0 = .ok ⟨"a", false⟩ := by decide +kernel
  have replaced : entry b 2 = .ok ⟨"\uFFFD", true⟩ := by decide +kernel
  have fails : entry b 4 = .error first := by decide +kernel
  have filled : StringTable.fill b slots whole.offsets =
      .ok ⟨#["a", "\uFFFD", "a", "\uFFFD"], 2⟩ := by decide +kernel
  have failed : StringTable.fill b slots [0, 4, 2, 9] = .error first := by decide +kernel
  have other : (cut false).fill b slots = .error second := by decide +kernel
  have reads : ∀ off ∈ whole.offsets, ∃ t, entry b off = .ok t := by
    intro off member
    simp only [whole, offsets, List.nil_append, List.singleton_append, List.mem_cons,
      List.not_mem_nil, or_false] at member
    obtain rfl | rfl | rfl | rfl := member
    · exact ⟨_, a⟩
    · exact ⟨_, replaced⟩
    · exact ⟨_, a⟩
    · exact ⟨_, replaced⟩
  have prefers : (cut true).PrefersLeft b := by
    have whole : ¬ (leaf [0]).Fails b := by simp [Fails, offsets, a]
    have left : (fork false (leaf [0]) (leaf [4])).PrefersLeft b :=
      ⟨fun fails => absurd fails whole, fun _ => trivial⟩
    exact ⟨fun _ => ⟨left, fun _ => rfl⟩, fun _ => trivial⟩
  obtain ⟨texts, -, sequential, shared⟩ := (fill_agrees_with_sequential b whole slots rfl).2.1 reads
  obtain ⟨d, e, -, stopped, halted, -, same⟩ :=
    (fill_agrees_with_sequential b (cut true) slots rfl).2.2 ⟨4, by decide, first, fails⟩
  have agreed : (cut true).fill b slots = StringTable.fill b slots [0, 4, 2, 9] := by
    rw [halted, same prefers]
    exact stopped.symm
  exact ⟨shared.trans (sequential.symm.trans filled), failed, agreed.trans failed, other⟩

end Split

end DexListing.StringTable
