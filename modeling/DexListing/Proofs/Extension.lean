import DexListing.Proofs.Failure.Shape

namespace DexListing

variable {α β : Type}

def RanOut (x : Except Error α) : Prop :=
  ∃ e, x = .error e ∧ e.kind = .bufferBounds

/-- Unless the first outcome comes from running out of the buffer, the second is the same. -/
def Settled (x y : Except Error α) : Prop :=
  RanOut x ∨ y = x

namespace Settled

variable {x y : Except Error α}

theorem refl (x : Except Error α) : Settled x x :=
  .inr rfl

theorem bind {f g : α → Except Error β} (h : Settled x y)
    (hf : ∀ a, x = .ok a → Settled (f a) (g a)) : Settled (x >>= f) (y >>= g) := by
  rcases h with ⟨e, rfl, hk⟩ | rfl
  · exact .inl ⟨e, rfl, hk⟩
  · cases y with
    | error e => exact refl _
    | ok a => exact hf a rfl

theorem map (f : α → β) (h : Settled x y) : Settled (x.map f) (y.map f) := by
  rcases h with ⟨e, rfl, hk⟩ | rfl
  · exact .inl ⟨e, rfl, hk⟩
  · exact refl _

theorem within (place : Place) (h : Settled x y) :
    Settled (within place x) (within place y) := by
  rcases h with ⟨e, rfl, hk⟩ | rfl
  · exact .inl ⟨e.within place, rfl, hk⟩
  · exact refl _

theorem collectFrom {f g : Nat → Except Error α} (h : ∀ i, Settled (f i) (g i)) (i k : Nat)
    (found : Array α) : Settled (collectFrom f i k found) (collectFrom g i k found) := by
  induction k generalizing i found with
  | zero => exact refl _
  | succ k ih =>
      unfold DexListing.collectFrom
      rcases h i with ⟨e, he, hk⟩ | he
      · exact .inl ⟨e, by rw [he], hk⟩
      · rw [he]
        cases f i with
        | error e => exact refl _
        | ok a => exact ih (i + 1) (found.push a)

theorem collect {f g : Nat → Except Error α} (h : ∀ i, Settled (f i) (g i)) (n : Nat) :
    Settled (collect n f) (collect n g) :=
  collectFrom h 0 n #[]

theorem join {preferLeft : Bool} {x x' y y' : Except Error StringTable.Entries}
    (hx : Settled x x') (hy : Settled y y') :
    Settled (StringTable.Split.join preferLeft x y) (StringTable.Split.join preferLeft x' y') := by
  rcases hx with ⟨d, rfl, hd⟩ | rfl
  · rcases hy with ⟨e, rfl, he⟩ | rfl
    · cases preferLeft with
      | true => exact .inl ⟨d, rfl, hd⟩
      | false => exact .inl ⟨e, rfl, he⟩
    · cases y' with
      | ok v => exact .inl ⟨d, rfl, hd⟩
      | error e =>
          cases preferLeft with
          | true => exact .inl ⟨d, rfl, hd⟩
          | false => cases x' <;> exact refl _
  · rcases hy with ⟨e, rfl, he⟩ | rfl
    · cases x' with
      | ok u => exact .inl ⟨e, rfl, he⟩
      | error d =>
          cases preferLeft with
          | true => cases y' <;> exact refl _
          | false => exact .inl ⟨e, rfl, he⟩
    · exact refl _

end Settled

section Readers

variable (b s : Bytes)

end Readers

namespace Run

def RanOut (r : Run α) : Prop :=
  DexListing.RanOut r.outcome

def Settled (r r' : Run α) : Prop :=
  r.RanOut ∨ r' = r

namespace Settled

variable {r r' : Run α}

theorem refl (r : Run α) : Settled r r :=
  .inr rfl

theorem bind {f g : α → Run β} (h : Settled r r')
    (hf : ∀ a, r.outcome = .ok a → Settled (f a) (g a)) : Settled (r >>= f) (r' >>= g) := by
  rcases h with ⟨e, he, hk⟩ | rfl
  · rw [bind_of_error he]
    exact .inl ⟨e, rfl, hk⟩
  · cases ho : r'.outcome with
    | error e =>
        rw [bind_of_error ho, bind_of_error ho]
        exact refl _
    | ok a =>
        rw [bind_of_ok ho, bind_of_ok ho]
        rcases hf a ho with ⟨e, he, hk⟩ | he
        · exact .inl ⟨e, he, hk⟩
        · rw [he]
          exact refl _

theorem within (place : Place) (h : Settled r r') :
    Settled (r.within place) (r'.within place) := by
  rcases h with ⟨e, he, hk⟩ | rfl
  · exact .inl ⟨e.within place, by rw [outcome_within, he]; rfl, hk⟩
  · exact refl _

theorem each {f g : α → Run β} (h : ∀ a, Settled (f a) (g a)) (xs : List α) :
    Settled (Run.each f xs) (Run.each g xs) := by
  induction xs with
  | nil => exact refl _
  | cons x xs ih => exact (h x).bind fun y _ => ih.bind fun ys _ => refl _

end Settled

end Run

section Listing

variable (b s : Bytes) (o : Options) (pool : WorkerPool)

end Listing

end DexListing
