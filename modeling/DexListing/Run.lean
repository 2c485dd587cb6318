import DexListing.Log

namespace DexListing

structure Run (α : Type) where
  outcome : Except Error α
  log : List Record

namespace Run

variable {α β : Type}

def ok (a : α) : Run α :=
  ⟨.ok a, []⟩

/-- What was told before a failure stays told; after it nothing is. -/
def andThen (r : Run α) (f : α → Run β) : Run β :=
  match r.outcome with
  | .error e => ⟨.error e, r.log⟩
  | .ok a =>
    let next := f a
    ⟨next.outcome, r.log ++ next.log⟩

instance : Monad Run where
  pure := ok
  bind := andThen

def tell (record : Record) : Run Unit :=
  ⟨.ok (), [record]⟩

def tellAll (records : List Record) : Run Unit :=
  ⟨.ok (), records⟩

def silent (r : Except Error α) : Run α :=
  ⟨r, []⟩

instance : MonadLift (Except Error) Run where
  monadLift := silent

def within (place : Place) (r : Run α) : Run α :=
  ⟨DexListing.within place r.outcome, r.log⟩

@[simp] theorem outcome_pure (a : α) : (pure a : Run α).outcome = .ok a := rfl

@[simp] theorem log_pure (a : α) : (pure a : Run α).log = [] := rfl

@[simp] theorem outcome_lift (r : Except Error α) : (liftM r : Run α).outcome = r := rfl

@[simp] theorem log_lift (r : Except Error α) : (liftM r : Run α).log = [] := rfl

@[simp] theorem outcome_tell (record : Record) : (tell record).outcome = .ok () := rfl

@[simp] theorem outcome_tellAll (records : List Record) : (tellAll records).outcome = .ok () := rfl

@[simp] theorem log_tellAll (records : List Record) : (tellAll records).log = records := rfl

@[simp] theorem outcome_within (place : Place) (r : Run α) :
    (r.within place).outcome = DexListing.within place r.outcome := rfl

theorem bind_of_ok {r : Run α} {a : α} (h : r.outcome = .ok a) (f : α → Run β) :
    r >>= f = ⟨(f a).outcome, r.log ++ (f a).log⟩ := by
  simp [bind, andThen, h]

theorem bind_of_error {r : Run α} {e : Error} (h : r.outcome = .error e) (f : α → Run β) :
    r >>= f = ⟨.error e, r.log⟩ := by
  simp [bind, andThen, h]

theorem lift_ok_bind (a : α) (f : α → Run β) :
    (liftM (.ok a : Except Error α) : Run α) >>= f = f a := rfl

theorem lift_error_bind (e : Error) (f : α → Run β) :
    (liftM (.error e : Except Error α) : Run α) >>= f = ⟨.error e, []⟩ := rfl

@[simp] theorem outcome_bind (r : Run α) (f : α → Run β) :
    (r >>= f).outcome = r.outcome >>= fun a => (f a).outcome := by
  cases h : r.outcome with
  | error e => rw [bind_of_error h]; rfl
  | ok a => rw [bind_of_ok h]; rfl

end Run

def Run.each {α β : Type} (f : α → Run β) : List α → Run (List β)
  | [] => pure []
  | x :: xs => do
    let y ← f x
    let ys ← Run.each f xs
    return y :: ys

end DexListing
