import DexListing.Proofs.Code.Units
import DexListing.Proofs.Container.Phase
import DexListing.Proofs.StringTable.Entries

namespace DexListing

namespace Run

variable {α β : Type}

theorem log_bind_of_ok {r : Run α} {a : α} (h : r.outcome = .ok a) (f : α → Run β) :
    (r >>= f).log = r.log ++ (f a).log := by
  rw [bind_of_ok h]

theorem log_bind_of_error {r : Run α} {e : Error} (h : r.outcome = .error e) (f : α → Run β) :
    (r >>= f).log = r.log := by
  rw [bind_of_error h]

theorem log_bind_pure (r : Run α) (g : α → β) : (r >>= fun a => pure (g a)).log = r.log := by
  cases h : r.outcome with
  | error e => exact log_bind_of_error h _
  | ok a => rw [log_bind_of_ok h, log_pure, List.append_nil]

def told (g : α → Record) : Except Error α → List Record
  | .ok a => [g a]
  | .error _ => []

theorem log_bind_of_told {r : Run α} {f : α → Run β} {g : β → Record}
    (h : ∀ a, (f a).log = told g (f a).outcome) :
    (r >>= f).log = r.log ++ told g (r >>= f).outcome := by
  cases hr : r.outcome with
  | error e =>
      rw [bind_of_error hr]
      exact (List.append_nil _).symm
  | ok a =>
      rw [bind_of_ok hr]
      exact congrArg _ (h a)

section Each

variable {f : α → Run β} {x : α}

theorem log_each_cons_of_ok {y : β} (h : (f x).outcome = .ok y) (xs : List α) :
    (each f (x :: xs)).log = (f x).log ++ (each f xs).log := by
  rw [each, log_bind_of_ok h, log_bind_pure]

theorem log_each_cons_of_error {e : Error} (h : (f x).outcome = .error e) (xs : List α) :
    (each f (x :: xs)).log = (f x).log := by
  rw [each, log_bind_of_error h]

theorem log_each_append {before : List α} (h : ∀ x ∈ before, ∃ y, (f x).outcome = .ok y)
    (xs : List α) :
    (each f (before ++ xs)).log = (before.flatMap fun x => (f x).log) ++ (each f xs).log := by
  induction before with
  | nil => rfl
  | cons x before ih =>
      obtain ⟨y, hy⟩ := h x List.mem_cons_self
      have hs := ih fun z hz => h z (List.mem_cons_of_mem x hz)
      rw [List.cons_append, log_each_cons_of_ok hy, hs, List.flatMap_cons, List.append_assoc]

end Each

end Run

namespace StringTable

structure Texts (b : Bytes) (texts : List Text) : Prop where
  length : texts.length = tableSize b .strings
  text : ∀ i, (h : i < texts.length) → textAt b i = .ok texts[i]

def records (texts : List Text) (workers : Nat) : List Record :=
  (if texts.countP Text.lossy = 0 then []
    else [.lossyStrings (texts.countP Text.lossy) texts.length]) ++
    [.stringsDecoded texts.length workers]

variable {b : Bytes}

theorem summary_of_texts (texts : List Text) (workers : Nat) :
    summary ⟨(texts.map Text.value).toArray, texts.countP Text.lossy⟩ workers =
      records texts (max workers 1) := by
  have count : (texts.map Text.value).toArray.size = texts.length := by simp
  simp only [summary, records, count, Nat.pos_iff_ne_zero, ite_not]

theorem size_offsetsAt_strings (b : Bytes) :
    (offsetsAt b (extentAt b .strings)).toArray.size = tableSize b .strings := by
  rw [List.size_toArray, length_offsetsAt]
  rfl

theorem log_decode_of_error (h : Framed b) {workers : Nat} {pool : WorkerPool} {e : Error}
    (failed : (decode b (extentAt b .strings) workers pool).outcome = .error e) :
    (decode b (extentAt b .strings) workers pool).log =
      pool.refusals workers (tableSize b .strings) := by
  rw [decode_of_offsets (offsets_of_inside (h.inside .strings)), size_offsetsAt_strings] at failed ⊢
  split at failed
  next => cases failed
  next => rfl

theorem log_decode_of_texts (h : Framed b) {texts : List Text} (ht : Texts b texts)
    (workers : Nat) (pool : WorkerPool) :
    (decode b (extentAt b .strings) workers pool).log =
      pool.refusals workers (tableSize b .strings) ++ records texts (max workers 1) := by
  have stand : List.Forall₂ (fun off t => entry b off = .ok t)
      (offsetsAt b (extentAt b .strings)) texts := by
    rw [List.forall₂_iff_get]
    refine ⟨(length_offsetsAt b _).trans ht.length.symm, fun i _ hi => ?_⟩
    simp only [offsetsAt, List.get_eq_getElem, List.getElem_ofFn]
    exact ht.text i hi
  have decoded : (pool.split workers (offsetsAt b (extentAt b .strings))).entries b =
      .ok ⟨(texts.map Text.value).toArray, texts.countP Text.lossy⟩ :=
    WorkerPool.entries_split_eq_ok_iff.2 (entries_of_texts stand)
  rw [decode_of_offsets (offsets_of_inside (h.inside .strings)), size_offsetsAt_strings]
  simp only [decoded, summary_of_texts]

end StringTable

theorem Container.log_decode {b : Bytes} {header : Header} (h : Header.read b = .ok header)
    (o : Options) (pool : WorkerPool) :
    (decode b o pool).log =
      (StringTable.decode b header.strings o.effectiveWorkers pool).log ++
        Run.told summary (decode b o pool).outcome := by
  rw [decode, h, Run.lift_ok_bind]
  -- Each later table is silent; the summary is told when the last of them is decoded.
  refine Run.log_bind_of_told fun strings => ?_
  refine Run.log_bind_of_told fun types => ?_
  refine Run.log_bind_of_told fun fields => ?_
  refine Run.log_bind_of_told fun methods => ?_
  exact Run.log_bind_of_told fun classes => rfl

def Resolved.Warns {α : Type} (r : Resolved α) : Prop :=
  ∀ w ∈ r.warning, w.level = .warn

theorem warns_lookup {α β : Type} (t : Table) (pool : Array α) (i : UInt8) (view : α → β)
    (placeholder : β) : (lookup t pool i view placeholder).Warns := by
  intro w hw
  rw [lookup] at hw
  split at hw
  · cases hw
  · cases hw
    rfl

theorem warns_of_map {α β : Type} {f : α → β} {x : Except Mismatch (Resolved α)} {r : Resolved β}
    (hx : ∀ s, x = .ok s → s.Warns) (h : x.map (Resolved.map f) = .ok r) : r.Warns := by
  obtain ⟨s, hs, rfl⟩ := map_eq_ok_iff.1 h
  exact hx s hs

theorem OperandSource.warns_method {source : OperandSource} {i : UInt8}
    {r : Resolved (String × String)} (h : source.method i = .ok r) : r.Warns := by
  cases source with
  | methods pool =>
      cases h
      exact warns_lookup _ _ _ _ _
  | _ => cases h

theorem Slot.warns_fill {slot : Slot} {u : CodeUnit} {source : OperandSource} {r : Resolved String}
    (h : slot.fill u source = .ok r) : r.Warns := by
  cases slot with
  | none =>
      cases h
      exact fun w hw => nomatch hw
  | number shift =>
      obtain ⟨v, _, rfl⟩ := map_eq_ok_iff.1 h
      exact fun w hw => nomatch hw
  | method => exact warns_of_map (fun _ => OperandSource.warns_method) h
  | ownedMethod => exact warns_of_map (fun _ => OperandSource.warns_method) h
  | _ =>
      cases source <;> cases h
      exact warns_lookup _ _ _ _ _

theorem Code.warns_line {set : InstructionSet} {t : Tables} {p : PlacedUnit} {r : Resolved Line}
    (h : line set t p = .ok r) : r.Warns := by
  refine warns_of_map (fun s hs => ?_) h
  rw [text] at hs
  cases hx : set.get? p.unit.opcode with
  | none =>
      rw [hx] at hs
      cases hs
      exact fun w hw => by cases hw; rfl
  | some x =>
      rw [hx] at hs
      exact warns_of_map (fun _ => warns_of_map fun _ => Slot.warns_fill) hs

namespace Container

variable (c : Container) (b : Bytes) (x : ClassDef)

def warnings : List Record :=
  match Code.units b x.dataOffset with
  | .ok found => found.filterMap fun p => (Dalvik.line c.tables p).warning
  | .error _ => []

theorem level_of_mem_warnings {c : Container} {b : Bytes} {x : ClassDef} {w : Record}
    (h : w ∈ c.warnings b x) : w.level = .warn := by
  rw [warnings] at h
  split at h
  · obtain ⟨p, _, hp⟩ := List.mem_filterMap.1 h
    exact Code.warns_line (Dalvik.line_eq_ok c.tables p) w hp
  · cases h

theorem warnings_of_error {e : Error} (h : (c.body b x).outcome = .error e) :
    c.warnings b x = [] := by
  rw [outcome_body, within_eq_error_iff] at h
  obtain ⟨d, hd, _⟩ := h
  rw [Dalvik.outcome_listing, map_eq_error_iff] at hd
  rw [warnings, hd]

def bodyRecords : List Record :=
  .disassembling x.name x.dataOffset :: c.warnings b x

theorem bodyRecords_of_error {e : Error} (h : (c.body b x).outcome = .error e) :
    c.bodyRecords b x = [.disassembling x.name x.dataOffset] := by
  rw [bodyRecords, warnings_of_error c b x h]

theorem level_of_mem_bodyRecords {c : Container} {b : Bytes} {x : ClassDef} {r : Record}
    (h : r ∈ c.bodyRecords b x) : r.level = .warn ∨ r.level = .debug := by
  rcases List.mem_cons.1 h with rfl | h
  · exact .inr rfl
  · exact .inl (level_of_mem_warnings h)

theorem log_body : (c.body b x).log = c.bodyRecords b x := by
  have log : (Dalvik.listing b x.dataOffset c.tables).log = c.warnings b x := by
    rw [warnings]
    cases h : Code.units b x.dataOffset with
    | error e => rw [Dalvik.listing_of_error h]
    | ok found => rw [Dalvik.listing_of_ok h]
  rw [body, Run.log_bind_of_ok (Run.outcome_tell _)]
  exact congrArg _ log

theorem log_classListing : (c.classListing b x).log = c.bodyRecords b x :=
  (Run.log_bind_pure ..).trans (c.log_body b x)

end Container

end DexListing
