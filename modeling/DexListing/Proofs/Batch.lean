import DexListing.Batch
import DexListing.Proofs.Log.Trace

namespace DexListing

def Record.ofBatch : Record → Bool
  | batchDecoded _ _ => true
  | batchFailed _ _ => true
  | _ => false

theorem Record.ofBatch_eq_false {r : Record} (h : r.level = .warn ∨ r.level = .debug) :
    r.ofBatch = false := by
  cases r with
  | batchDecoded id classes => rcases h with h | h <;> cases h
  | batchFailed id error => rcases h with h | h <;> cases h
  | _ => rfl

theorem Trace.ofBatch_eq_false {b : Bytes} {o : Options} {pool : WorkerPool} {log : List Record}
    (h : Trace b o pool log) {r : Record} (hr : r ∈ log) : r.ofBatch = false := by
  rcases h.cases_of_mem hr with hl | ⟨c, _, rfl⟩
  · exact Record.ofBatch_eq_false hl
  · rfl

namespace Batch

variable {o : Options}

def append (x y : Batch) : Batch :=
  ⟨x.decoded ++ y.decoded, x.failures ++ y.failures, x.log ++ y.log⟩

theorem empty_append (x : Batch) : empty.append x = x := rfl

theorem append_empty (x : Batch) : x.append empty = x := by
  simp [append, empty]

theorem append_assoc (x y z : Batch) : (x.append y).append z = x.append (y.append z) := by
  simp [append]

def ending (id : String) : Except Error Listing → Record
  | .ok d => .batchDecoded id d.classes.length
  | .error e => .batchFailed id e

theorem ofBatch_ending (id : String) (r : Except Error Listing) : (ending id r).ofBatch = true := by
  cases r <;> rfl

def single (id : String) (run : Run Listing) : Batch where
  decoded := (run.outcome.toOption.map (id, ·)).toList
  failures := ((failure run.outcome).map (id, ·)).toList
  log := run.log ++ [ending id run.outcome]

theorem add_eq_append (batch : Batch) (id : String) (run : Run Listing) :
    batch.add id run = batch.append (single id run) := by
  rw [add, single]
  cases run.outcome with
  | ok d => simp [append, ending, failure, Except.toOption]
  | error e => simp [append, ending, failure, Except.toOption]

theorem foldl_add (inputs : List Input) (batch : Batch) :
    inputs.foldl (fun batch x => batch.add x.id (x.run o)) batch =
      batch.append (ofInputs inputs o) := by
  induction inputs generalizing batch with
  | nil => exact (append_empty batch).symm
  | cons x inputs ih =>
      -- The tail is folded twice: from the batch so far and from the empty one.
      rw [ofInputs, List.foldl_cons, List.foldl_cons, ih, ih, add_eq_append, add_eq_append,
        empty_append, append_assoc]

theorem ofInputs_append (xs ys : List Input) :
    ofInputs (xs ++ ys) o = (ofInputs xs o).append (ofInputs ys o) := by
  rw [ofInputs, List.foldl_append, foldl_add]
  rfl

theorem ofInputs_cons (x : Input) (inputs : List Input) :
    ofInputs (x :: inputs) o = (single x.id (x.run o)).append (ofInputs inputs o) := by
  rw [ofInputs, List.foldl_cons, foldl_add, add_eq_append, empty_append]

theorem part_ofInputs {α : Type} (part : Batch → List α) (nil : part empty = [])
    (append : ∀ x y : Batch, part (x.append y) = part x ++ part y)
    (inputs : List Input) :
    part (ofInputs inputs o) = inputs.flatMap fun x => part (single x.id (x.run o)) := by
  induction inputs with
  | nil => exact nil
  | cons x inputs ih => rw [ofInputs_cons, append, ih, List.flatMap_cons]

theorem decoded_ofInputs (inputs : List Input) :
    (ofInputs inputs o).decoded =
      inputs.filterMap fun x => (x.run o).outcome.toOption.map (x.id, ·) := by
  rw [List.filterMap_eq_flatMap_toList]
  exact part_ofInputs decoded rfl (fun _ _ => rfl) inputs

theorem failures_ofInputs (inputs : List Input) :
    (ofInputs inputs o).failures =
      inputs.filterMap fun x => (failure (x.run o).outcome).map (x.id, ·) := by
  rw [List.filterMap_eq_flatMap_toList]
  exact part_ofInputs failures rfl (fun _ _ => rfl) inputs

theorem log_ofInputs (inputs : List Input) :
    (ofInputs inputs o).log = inputs.flatMap fun x =>
      (x.run o).log ++ [ending x.id (x.run o).outcome] :=
  part_ofInputs log rfl (fun _ _ => rfl) inputs

theorem filter_log_single (x : Input) :
    (single x.id (x.run o)).log.filter Record.ofBatch = [ending x.id (x.run o).outcome] := by
  have silent : (x.run o).log.filter Record.ofBatch = [] := by
    rw [List.filter_eq_nil_iff]
    intro r hr
    rw [(Trace.log_eq_iff.1 rfl).ofBatch_eq_false hr]
    exact Bool.false_ne_true
  rw [single, List.filter_append, silent, List.nil_append,
    List.filter_cons_of_pos (ofBatch_ending ..)]
  rfl

theorem filter_log_ofInputs (inputs : List Input) :
    (ofInputs inputs o).log.filter Record.ofBatch =
      inputs.map fun x => ending x.id (x.run o).outcome := by
  have whole := part_ofInputs (o := o) (fun batch => batch.log.filter Record.ofBatch) rfl
    (fun x y => List.filter_append x.log y.log) inputs
  simp only [filter_log_single] at whole
  rw [whole, List.map_eq_flatMap]

theorem length_ofInputs (inputs : List Input) :
    (ofInputs inputs o).decoded.length + (ofInputs inputs o).failures.length = inputs.length := by
  induction inputs with
  | nil => rfl
  | cons x inputs ih =>
      have one : (single x.id (x.run o)).decoded.length +
          (single x.id (x.run o)).failures.length = 1 := by
        rw [single]
        cases (x.run o).outcome <;> rfl
      rw [ofInputs_cons, append, List.length_append, List.length_append, List.length_cons]
      omega

theorem foldl_classes (n : Nat) (decoded : List (String × Listing)) :
    decoded.foldl (fun n y => n + y.2.classes.length) n =
      n + (decoded.map fun y => y.2.classes.length).sum := by
  induction decoded generalizing n with
  | nil => rfl
  | cons y decoded ih => rw [List.foldl_cons, ih, List.map_cons, List.sum_cons, Nat.add_assoc]

theorem classCount_append (x y : Batch) :
    (x.append y).classCount = x.classCount + y.classCount := by
  simp only [classCount, append, foldl_classes, List.map_append, List.sum_append, Nat.zero_add]

theorem isClean_ofInputs (inputs : List Input) :
    (ofInputs inputs o).isClean = true ↔
      ∀ x ∈ inputs, ∃ d, (x.run o).outcome = .ok d := by
  rw [isClean, List.isEmpty_iff, failures_ofInputs, List.filterMap_eq_nil_iff]
  simp only [Option.map_eq_none_iff, failure_eq_none_iff]

structure OneByOne (inputs : List Input) (o : Options) (batch : Batch) : Prop where
  decoded : batch.decoded =
    inputs.filterMap fun x => (x.run o).outcome.toOption.map (x.id, ·)
  failures : batch.failures =
    inputs.filterMap fun x => (failure (x.run o).outcome).map (x.id, ·)
  length : batch.decoded.length + batch.failures.length = inputs.length
  log : batch.log = inputs.flatMap fun x =>
    (x.run o).log ++ [ending x.id (x.run o).outcome]
  endings : batch.log.filter Record.ofBatch =
    inputs.map fun x => ending x.id (x.run o).outcome
  clean : batch.isClean = true ↔ ∀ x ∈ inputs, ∃ d, (x.run o).outcome = .ok d

theorem oneByOne_ofInputs (inputs : List Input) (o : Options) :
    OneByOne inputs o (ofInputs inputs o) where
  decoded := decoded_ofInputs inputs
  failures := failures_ofInputs inputs
  length := length_ofInputs inputs
  log := log_ofInputs inputs
  endings := filter_log_ofInputs inputs
  clean := isClean_ofInputs inputs

/-- What one input gives does not depend on the inputs before and after it. -/
theorem inputs_are_isolated (inputs : List Input) (o : Options) :
    OneByOne inputs o (ofInputs inputs o) ∧
      (∀ others, ofInputs (inputs ++ others) o = (ofInputs inputs o).append (ofInputs others o) ∧
        (ofInputs (inputs ++ others) o).classCount =
          (ofInputs inputs o).classCount + (ofInputs others o).classCount) ∧
      (∀ before after, ofInputs (before ++ inputs ++ after) o =
        ((ofInputs before o).append (ofInputs inputs o)).append (ofInputs after o)) ∧
      (∀ id d, (ending id (.ok d)).level = .info ∧
        (ending id (.ok d)).text = s!"[batch] {id}: {d.classes.length} classes") ∧
      ∀ id e, (ending id (.error e)).level = .error ∧
        (ending id (.error e)).text = s!"[batch] {id} failed: {e.text}" := by
  refine ⟨oneByOne_ofInputs inputs o, fun others => ?_, fun before after => ?_,
    fun _ _ => ⟨rfl, rfl⟩, fun _ _ => ⟨rfl, rfl⟩⟩
  · have whole := ofInputs_append (o := o) inputs others
    exact ⟨whole, by rw [whole, classCount_append]⟩
  · rw [ofInputs_append, ofInputs_append]

end Batch

end DexListing
