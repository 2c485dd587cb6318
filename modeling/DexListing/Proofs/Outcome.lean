import DexListing.Collect

namespace DexListing

variable {α β : Type}

theorem bind_eq_ok_iff {x : Except Error α} {f : α → Except Error β} {y : β} :
    x >>= f = .ok y ↔ ∃ a, x = .ok a ∧ f a = .ok y := by
  cases x with
  | error e => simp [bind, Except.bind]
  | ok a => simp [bind, Except.bind]

theorem bind_eq_error_iff {x : Except Error α} {f : α → Except Error β} {e : Error} :
    x >>= f = .error e ↔ x = .error e ∨ ∃ a, x = .ok a ∧ f a = .error e := by
  cases x with
  | error d => simp [bind, Except.bind]
  | ok a => simp [bind, Except.bind]

theorem map_eq_ok_iff {ε : Type} {x : Except ε α} {f : α → β} {y : β} :
    x.map f = .ok y ↔ ∃ a, x = .ok a ∧ f a = y := by
  cases x <;> simp [Except.map]

theorem map_eq_error_iff {ε : Type} {x : Except ε α} {f : α → β} {e : ε} :
    x.map f = .error e ↔ x = .error e := by
  cases x <;> simp [Except.map]

def failure : Except Error α → Option Error
  | .ok _ => none
  | .error e => some e

theorem failure_eq_some_iff {x : Except Error α} {e : Error} :
    failure x = some e ↔ x = .error e := by
  cases x <;> simp [failure]

theorem failure_eq_none_iff {x : Except Error α} : failure x = none ↔ ∃ a, x = .ok a := by
  cases x <;> simp [failure]

theorem failure_bind {x : Except Error α} {f : α → Except Error β} {later : Option Error}
    (h : ∀ a, x = .ok a → failure (f a) = later) :
    failure (x >>= f) = (failure x).or later := by
  cases x with
  | error e => rfl
  | ok a => simpa [failure, bind, Except.bind] using h a rfl

theorem failure_bind_pure (x : Except Error α) (f : α → β) :
    failure (x >>= fun a => pure (f a)) = failure x := by
  cases x <;> rfl

theorem failure_map {x : Except Error α} (f : α → β) : failure (x.map f) = failure x := by
  cases x <;> rfl

theorem failure_within (place : Place) (x : Except Error α) :
    failure (within place x) = (failure x).map (Error.within place) := by
  cases x <;> rfl

theorem findSome?_cons_or (f : α → Option β) (x : α) (xs : List α) :
    (x :: xs).findSome? f = (f x).or (xs.findSome? f) := by
  rw [List.findSome?_cons]
  cases f x <;> rfl

theorem findSome?_eq_range' {xs : List α} {f : α → Option β} {g : Nat → Option β} {k : Nat}
    (h : ∀ i, (hi : i < xs.length) → f xs[i] = g (k + i)) :
    xs.findSome? f = (List.range' k xs.length).findSome? g := by
  induction xs generalizing k with
  | nil => rfl
  | cons x xs ih =>
      have h0 : f x = g k := h 0 (by simp)
      rw [List.length_cons, List.range'_succ, findSome?_cons_or, findSome?_cons_or, h0]
      congr 1
      refine ih fun i hi => ?_
      have := h (i + 1) (by simpa using hi)
      rwa [show k + 1 + i = k + (i + 1) by omega]

theorem findSome?_eq_range {xs : List α} {f : α → Option β} {g : Nat → Option β} {n : Nat}
    (hn : xs.length = n) (h : ∀ i, (hi : i < xs.length) → f xs[i] = g i) :
    xs.findSome? f = (List.range n).findSome? g := by
  rw [← hn, List.range_eq_range']
  exact findSome?_eq_range' fun i hi => by rw [Nat.zero_add]; exact h i hi

theorem failure_collectFrom (f : Nat → Except Error α) (i k : Nat) (found : Array α) :
    failure (collectFrom f i k found) = (List.range' i k).findSome? fun j => failure (f j) := by
  induction k generalizing i found with
  | zero => rfl
  | succ k ih =>
      rw [collectFrom, List.range'_succ, List.findSome?_cons]
      cases hf : f i with
      | error e => simp [failure]
      | ok a => simpa [failure] using ih (i + 1) (found.push a)

theorem failure_collect (f : Nat → Except Error α) (n : Nat) :
    failure (collect n f) = (List.range n).findSome? fun i => failure (f i) := by
  rw [collect, failure_collectFrom, List.range_eq_range']

theorem collectFrom_eq_error_iff {f : Nat → Except Error α} {i k : Nat} {found : Array α}
    {e : Error} :
    collectFrom f i k found = .error e ↔
      ∃ j < k, f (i + j) = .error e ∧ ∀ m < j, ∃ a, f (i + m) = .ok a := by
  induction k generalizing i found with
  | zero => simp [collectFrom]
  | succ k ih =>
      have shift (j : Nat) : i + 1 + j = i + (j + 1) := by omega
      rw [collectFrom]
      cases hf : f i with
      | error d =>
          simp only [Except.error.injEq]
          constructor
          · rintro rfl
            exact ⟨0, Nat.zero_lt_succ k, hf, fun m hm => absurd hm (Nat.not_lt_zero m)⟩
          · rintro ⟨j, _, fails, before⟩
            cases j with
            | zero =>
                rw [Nat.add_zero, hf] at fails
                exact Except.error.inj fails
            | succ j =>
                obtain ⟨a, ha⟩ := before 0 (Nat.zero_lt_succ j)
                rw [Nat.add_zero, hf] at ha
                cases ha
      | ok a =>
          simp only [ih, shift]
          constructor
          · rintro ⟨j, hj, fails, before⟩
            refine ⟨j + 1, Nat.succ_lt_succ hj, fails, fun m hm => ?_⟩
            cases m with
            | zero => exact ⟨a, hf⟩
            | succ m => exact before m (Nat.lt_of_succ_lt_succ hm)
          · rintro ⟨j, hj, fails, before⟩
            cases j with
            | zero =>
                rw [Nat.add_zero, hf] at fails
                cases fails
            | succ j =>
                exact ⟨j, Nat.lt_of_succ_lt_succ hj, fails,
                  fun m hm => before (m + 1) (Nat.succ_lt_succ hm)⟩

theorem collect_eq_error_iff {n : Nat} {f : Nat → Except Error α} {e : Error} :
    collect n f = .error e ↔ ∃ i < n, f i = .error e ∧ ∀ j < i, ∃ a, f j = .ok a := by
  rw [collect, collectFrom_eq_error_iff]
  simp only [Nat.zero_add]

theorem collectFrom_congr {f g : Nat → Except Error α} {i k : Nat} {found : Array α}
    (h : ∀ j, i ≤ j → j < i + k → f j = g j) :
    collectFrom f i k found = collectFrom g i k found := by
  induction k generalizing i found with
  | zero => rfl
  | succ k ih =>
      simp only [collectFrom, h i (by omega) (by omega)]
      cases g i with
      | error e => rfl
      | ok a => exact ih fun j hj hk => h j (by omega) (by omega)

theorem collect_congr {f g : Nat → Except Error α} {n : Nat} (h : ∀ i < n, f i = g i) :
    collect n f = collect n g :=
  collectFrom_congr fun j _ hj => h j (by omega)

end DexListing
