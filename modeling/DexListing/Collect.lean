import DexListing.Error

namespace DexListing

variable {α : Type}

def collectFrom (f : Nat → Except Error α) : Nat → Nat → Array α → Except Error (Array α)
  | _, 0, found => .ok found
  | i, k + 1, found =>
    match f i with
    | .ok a => collectFrom f (i + 1) k (found.push a)
    | .error e => .error e

def collect (n : Nat) (f : Nat → Except Error α) : Except Error (Array α) :=
  collectFrom f 0 n #[]

def Gives (f : Nat → Except Error α) : Nat → List α → Prop
  | _, [] => True
  | i, y :: ys => f i = .ok y ∧ Gives f (i + 1) ys

theorem gives_iff {f : Nat → Except Error α} {i : Nat} {ys : List α} :
    Gives f i ys ↔ ∀ j, (h : j < ys.length) → f (i + j) = .ok ys[j] := by
  induction ys generalizing i with
  | nil => simp [Gives]
  | cons y ys ih =>
      have shift (j : Nat) : i + 1 + j = i + (j + 1) := by omega
      simp only [Gives, ih, shift]
      constructor
      · rintro ⟨h0, hs⟩ j hj
        cases j with
        | zero => exact h0
        | succ j => exact hs j (Nat.lt_of_succ_lt_succ hj)
      · intro h
        exact ⟨h 0 (Nat.zero_lt_succ _), fun j hj => h (j + 1) (Nat.succ_lt_succ hj)⟩

theorem collectFrom_eq_ok_iff {f : Nat → Except Error α} {i k : Nat} {found xs : Array α} :
    collectFrom f i k found = .ok xs ↔
      ∃ ys, ys.length = k ∧ Gives f i ys ∧ xs = found ++ ys.toArray := by
  induction k generalizing i found with
  | zero =>
      simp only [collectFrom, List.length_eq_zero_iff, Except.ok.injEq]
      constructor
      · rintro rfl
        exact ⟨[], rfl, trivial, by simp⟩
      · rintro ⟨_, rfl, _, rfl⟩
        simp
  | succ k ih =>
      rw [collectFrom]
      cases hf : f i with
      | error e =>
          simp only [reduceCtorEq, false_iff]
          rintro ⟨ys, hl, hg, _⟩
          cases ys with
          | nil => cases hl
          | cons y ys =>
              have hy := hg.1
              rw [hf] at hy
              cases hy
      | ok a =>
          simp only [ih]
          constructor
          · rintro ⟨ys, rfl, hg, rfl⟩
            exact ⟨a :: ys, rfl, ⟨hf, hg⟩, by simp⟩
          · rintro ⟨ys, hl, hg, rfl⟩
            cases ys with
            | nil => cases hl
            | cons y ys =>
                obtain ⟨hy, hg⟩ := hg
                rw [hf] at hy
                cases hy
                exact ⟨ys, Nat.succ.inj hl, hg, by simp⟩

theorem collect_eq_ok_iff {n : Nat} {f : Nat → Except Error α} {xs : Array α} :
    collect n f = .ok xs ↔
      xs.size = n ∧ ∀ i, (h : i < xs.size) → f i = .ok xs[i] := by
  rw [collect, collectFrom_eq_ok_iff]
  simp only [gives_iff, Nat.zero_add, Array.empty_append]
  constructor
  · rintro ⟨ys, hl, hg, rfl⟩
    exact ⟨by simpa using hl, fun i hi => by simpa using hg i (by simpa using hi)⟩
  · rintro ⟨hs, hx⟩
    exact ⟨xs.toList, by simpa using hs, fun i hi => by simpa using hx i (by simpa using hi), by simp⟩

end DexListing
