import DexListing.Proofs.Outcome
import DexListing.StringTable
import Mathlib.Data.List.Forall2

namespace DexListing.StringTable

variable {b : Bytes} {offs : List UInt32} {e : Error}

theorem extend_of_texts {texts : List Text} (found : Entries)
    (h : List.Forall₂ (fun off t => entry b off = .ok t) offs texts) :
    extend b found offs =
      .ok ⟨found.values ++ (texts.map Text.value).toArray,
        found.lossy + texts.countP Text.lossy⟩ := by
  induction h generalizing found with
  | nil => simp [extend]
  | @cons off t offs texts ht _ ih =>
      rw [extend, ht]
      have hl : (found.add t).lossy + texts.countP Text.lossy =
          found.lossy + (t :: texts).countP Text.lossy := by
        rw [List.countP_cons, Entries.add]
        cases t.lossy <;> simp +arith
      simp only [ih, hl]
      simp [Entries.add]

theorem entries_of_texts {texts : List Text}
    (h : List.Forall₂ (fun off t => entry b off = .ok t) offs texts) :
    entries b offs = .ok ⟨(texts.map Text.value).toArray, texts.countP Text.lossy⟩ := by
  rw [entries, extend_of_texts .empty h]
  simp [Entries.empty]

theorem failure_extend (b : Bytes) (found : Entries) (offs : List UInt32) :
    failure (extend b found offs) = offs.findSome? fun off => failure (entry b off) := by
  induction offs generalizing found with
  | nil => rfl
  | cons off offs ih =>
      rw [extend, findSome?_cons_or]
      cases entry b off with
      | error e => rfl
      | ok t => exact ih (found.add t)

def FirstFails (b : Bytes) (offs : List UInt32) (e : Error) : Prop :=
  ∃ before off after, offs = before ++ off :: after ∧
    (∀ x ∈ before, ∃ t, entry b x = .ok t) ∧ entry b off = .error e

theorem entries_eq_error_iff : entries b offs = .error e ↔ FirstFails b offs e := by
  rw [← failure_eq_some_iff, entries, failure_extend, List.findSome?_eq_some_iff]
  simp only [failure_eq_some_iff, failure_eq_none_iff]
  constructor
  · rintro ⟨before, off, after, rfl, fails, reads⟩
    exact ⟨before, off, after, rfl, reads, fails⟩
  · rintro ⟨before, off, after, rfl, reads, fails⟩
    exact ⟨before, off, after, rfl, fails, reads⟩

theorem exists_texts (h : ∀ off ∈ offs, ∃ t, entry b off = .ok t) :
    ∃ texts, List.Forall₂ (fun off t => entry b off = .ok t) offs texts := by
  induction offs with
  | nil => exact ⟨[], .nil⟩
  | cons off offs ih =>
      obtain ⟨t, ht⟩ := h off List.mem_cons_self
      obtain ⟨texts, hts⟩ := ih fun x hx => h x (List.mem_cons_of_mem off hx)
      exact ⟨t :: texts, .cons ht hts⟩

theorem exists_firstFails (h : ∃ off ∈ offs, ∃ e, entry b off = .error e) :
    ∃ e, FirstFails b offs e := by
  simp only [← entries_eq_error_iff, ← failure_eq_some_iff, entries, failure_extend]
  obtain ⟨off, member, e, fails⟩ := h
  cases hf : offs.findSome? fun off => failure (entry b off) with
  | some e => exact ⟨e, rfl⟩
  | none =>
      have reads := List.findSome?_eq_none_iff.1 hf off member
      rw [fails] at reads
      cases reads

theorem extend_eq_map (b : Bytes) (found : Entries) (offs : List UInt32) :
    extend b found offs = (entries b offs).map found.append := by
  induction offs generalizing found with
  | nil => simp [extend, entries, Except.map, Entries.append_empty]
  | cons off offs ih =>
      rw [entries, extend, extend]
      cases entry b off with
      | error e => rfl
      | ok t =>
          dsimp only
          rw [ih, ih (Entries.empty.add t)]
          have joined (x : Entries) :
              found.append ((Entries.empty.add t).append x) = (found.add t).append x := by
            rw [← Entries.append_assoc, Entries.append_add, Entries.append_empty]
          cases entries b offs with
          | error e => rfl
          | ok x => simp only [Except.map, joined]

theorem entries_append (b : Bytes) (xs ys : List UInt32) :
    entries b (xs ++ ys) = do
      let x ← entries b xs
      let y ← entries b ys
      return x.append y := by
  rw [entries, extend_append, ← entries]
  cases entries b xs with
  | error e => rfl
  | ok x =>
      change extend b x ys = _
      rw [extend_eq_map]
      cases entries b ys <;> rfl

end DexListing.StringTable
