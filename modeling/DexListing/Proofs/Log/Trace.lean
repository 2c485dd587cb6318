import DexListing.Proofs.Failure.Shape
import DexListing.Proofs.Log.Told

namespace DexListing

def refusals (b : Bytes) (o : Options) (pool : WorkerPool) : List Record :=
  pool.refusals o.effectiveWorkers (tableSize b .strings)

inductive Trace (b : Bytes) (o : Options) (pool : WorkerPool) : List Record → Prop where
  | header {e : Error} : Header.read b = .error e → Trace b o pool []
  | string {header : Header} {i : Nat} {e : Error} : Header.read b = .ok header →
      i < tableSize b .strings → StringTable.textAt b i = .error e →
      Trace b o pool (refusals b o pool)
  | table {header : Header} {texts : List Text} {e : Error} : Header.read b = .ok header →
      StringTable.Texts b texts → (Container.decode b o pool).outcome = .error e →
      Trace b o pool (refusals b o pool ++ StringTable.records texts o.effectiveWorkers)
  | body {header : Header} {texts : List Text} {c : Container} {before after : List ClassDef}
      {x : ClassDef} {e : Error} : Header.read b = .ok header → StringTable.Texts b texts →
      (Container.decode b o pool).outcome = .ok c → c.classes.toList = before ++ x :: after →
      (∀ y ∈ before, ∃ lines, (c.body b y).outcome = .ok lines) →
      (c.body b x).outcome = .error e →
      Trace b o pool (refusals b o pool ++ StringTable.records texts o.effectiveWorkers ++
        [c.summary] ++ before.flatMap (c.bodyRecords b) ++ [.disassembling x.name x.dataOffset])
  | whole {header : Header} {texts : List Text} {c : Container} : Header.read b = .ok header →
      StringTable.Texts b texts → (Container.decode b o pool).outcome = .ok c →
      (∀ y ∈ c.classes.toList, ∃ lines, (c.body b y).outcome = .ok lines) →
      Trace b o pool (refusals b o pool ++ StringTable.records texts o.effectiveWorkers ++
        [c.summary] ++ c.classes.toList.flatMap (c.bodyRecords b))

variable {b : Bytes} {o : Options} {pool : WorkerPool} {header : Header}

theorem log_disassemble_of_error {e : Error} (h : (Container.decode b o pool).outcome = .error e) :
    (disassemble b o pool).log = (Container.decode b o pool).log :=
  Run.log_bind_of_error h _

theorem log_disassemble_of_ok {c : Container} (h : (Container.decode b o pool).outcome = .ok c) :
    (disassemble b o pool).log =
      (Container.decode b o pool).log ++ (Run.each (c.classListing b) c.classes.toList).log := by
  rw [disassemble, Run.log_bind_of_ok h, Run.log_bind_pure]

theorem Header.strings_of_read (h : read b = .ok header) : header.strings = extentAt b .strings := by
  obtain ⟨-, rfl⟩ := read_eq_ok_iff.1 h
  exact extent_ofBytes b .strings

namespace Container

theorem decode_of_header_error {e : Error} (h : Header.read b = .error e) (o : Options)
    (pool : WorkerPool) : decode b o pool = ⟨.error e, []⟩ := by
  rw [decode, h, Run.lift_error_bind]

theorem log_decode_of_texts (h : Header.read b = .ok header) {texts : List Text}
    (ht : StringTable.Texts b texts) (o : Options) (pool : WorkerPool) :
    (decode b o pool).log = refusals b o pool ++ StringTable.records texts o.effectiveWorkers ++
      Run.told summary (decode b o pool).outcome := by
  have workers : max o.effectiveWorkers 1 = o.effectiveWorkers := by
    rw [Options.effectiveWorkers, max_assoc, max_self]
  rw [log_decode h, Header.strings_of_read h,
    StringTable.log_decode_of_texts (Header.framed_of_read h) ht, workers]
  rfl

theorem decode_of_text_error (h : Header.read b = .ok header) {i : Nat}
    (hi : i < tableSize b .strings) {e : Error} (he : StringTable.textAt b i = .error e)
    (o : Options) (pool : WorkerPool) :
    ∃ d, decode b o pool = ⟨.error d, refusals b o pool⟩ := by
  have framed := Header.framed_of_read h
  rw [decode, h, Run.lift_ok_bind, Header.strings_of_read h]
  cases hs : (StringTable.decode b (extentAt b .strings) o.effectiveWorkers pool).outcome with
  | error d =>
      exact ⟨d, by rw [Run.bind_of_error hs, StringTable.log_decode_of_error framed hs]; rfl⟩
  | ok strings =>
      rw [StringTable.outcome_decode_eq_ok_iff framed, collect_eq_ok_iff] at hs
      -- Decoded strings would include the one that fails.
      obtain ⟨size, stands⟩ := hs
      have ht := stands i (size ▸ hi)
      rw [he] at ht
      cases ht

variable {c : Container} {xs : List ClassDef}

theorem exists_classListing {x : ClassDef} (h : ∃ lines, (c.body b x).outcome = .ok lines) :
    ∃ y, (c.classListing b x).outcome = .ok y := by
  obtain ⟨lines, hl⟩ := h
  exact ⟨_, by rw [classListing, Run.outcome_bind, hl]; rfl⟩

theorem log_each_of_ok (h : ∀ y ∈ xs, ∃ lines, (c.body b y).outcome = .ok lines) :
    (Run.each (c.classListing b) xs).log = xs.flatMap (c.bodyRecords b) := by
  have log := Run.log_each_append (fun y hy => exists_classListing (h y hy)) []
  simp only [log_classListing] at log
  rwa [List.append_nil, Run.each, Run.log_pure, List.append_nil] at log

theorem log_each_of_error {before after : List ClassDef} {x : ClassDef} {e : Error}
    (h : ∀ y ∈ before, ∃ lines, (c.body b y).outcome = .ok lines)
    (hx : (c.body b x).outcome = .error e) :
    (Run.each (c.classListing b) (before ++ x :: after)).log =
      before.flatMap (c.bodyRecords b) ++ [.disassembling x.name x.dataOffset] := by
  have fails : (c.classListing b x).outcome = .error e := by
    rw [classListing, Run.outcome_bind, hx]
    rfl
  rw [Run.log_each_append fun y hy => exists_classListing (h y hy),
    Run.log_each_cons_of_error fails]
  simp only [log_classListing, bodyRecords_of_error c b x hx]

end Container

namespace Trace

variable {log : List Record}

theorem log_eq (h : Trace b o pool log) : (disassemble b o pool).log = log := by
  cases h with
  | header he =>
      have decoded := Container.decode_of_header_error he o pool
      rw [log_disassemble_of_error (congrArg Run.outcome decoded), decoded]
  | string hh hi he =>
      obtain ⟨d, decoded⟩ := Container.decode_of_text_error hh hi he o pool
      rw [log_disassemble_of_error (congrArg Run.outcome decoded), decoded]
  | table hh ht he =>
      rw [log_disassemble_of_error he, Container.log_decode_of_texts hh ht, he]
      exact List.append_nil _
  | body hh ht hc split ok fails =>
      rw [log_disassemble_of_ok hc, Container.log_decode_of_texts hh ht, hc, split,
        Container.log_each_of_error ok fails, ← List.append_assoc]
      rfl
  | whole hh ht hc ok =>
      rw [log_disassemble_of_ok hc, Container.log_decode_of_texts hh ht, hc,
        Container.log_each_of_ok ok]
      rfl

theorem exists_first_failing_body (c : Container) (b : Bytes) (xs : List ClassDef) :
    (∀ y ∈ xs, ∃ lines, (c.body b y).outcome = .ok lines) ∨
      ∃ before x after e, xs = before ++ x :: after ∧
        (∀ y ∈ before, ∃ lines, (c.body b y).outcome = .ok lines) ∧
        (c.body b x).outcome = .error e := by
  cases hf : xs.findSome? fun y => failure (c.body b y).outcome with
  | none =>
      rw [List.findSome?_eq_none_iff] at hf
      exact .inl fun y hy => failure_eq_none_iff.1 (hf y hy)
  | some e =>
      obtain ⟨before, x, after, split, hx, hb⟩ := List.findSome?_eq_some_iff.1 hf
      exact .inr ⟨before, x, after, e, split, fun y hy => failure_eq_none_iff.1 (hb y hy),
        failure_eq_some_iff.1 hx⟩

theorem exists_texts (h : ∀ i < tableSize b .strings, ∀ e, StringTable.textAt b i ≠ .error e) :
    ∃ texts, StringTable.Texts b texts := by
  have stands : ∀ i < tableSize b .strings, ∃ t, StringTable.textAt b i = .ok t := by
    intro i hi
    cases ht : StringTable.textAt b i with
    | error e => exact absurd ht (h i hi e)
    | ok t => exact ⟨t, rfl⟩
  obtain ⟨texts, size, text⟩ := Container.exists_array stands
  exact ⟨texts.toList, size, fun i hi => text i hi⟩

theorem exists_trace (b : Bytes) (o : Options) (pool : WorkerPool) :
    ∃ log, Trace b o pool log := by
  cases hh : Header.read b with
  | error e => exact ⟨_, .header hh⟩
  | ok header =>
      by_cases hs : ∃ i < tableSize b .strings, ∃ e, StringTable.textAt b i = .error e
      · obtain ⟨i, hi, e, he⟩ := hs
        exact ⟨_, .string hh hi he⟩
      · obtain ⟨texts, ht⟩ := exists_texts fun i hi e he => hs ⟨i, hi, e, he⟩
        cases hc : (Container.decode b o pool).outcome with
        | error e => exact ⟨_, .table hh ht hc⟩
        | ok c =>
            rcases exists_first_failing_body c b c.classes.toList with ok | failing
            · exact ⟨_, .whole hh ht hc ok⟩
            · obtain ⟨before, x, after, e, split, ok, fails⟩ := failing
              exact ⟨_, .body hh ht hc split ok fails⟩

theorem log_eq_iff : (disassemble b o pool).log = log ↔ Trace b o pool log := by
  constructor
  · rintro rfl
    obtain ⟨log, h⟩ := exists_trace b o pool
    rw [h.log_eq]
    exact h
  · exact log_eq

end Trace

theorem StringTable.level_of_mem_records {texts : List Text} {workers : Nat} {r : Record}
    (h : r ∈ records texts workers) : r.level = .warn ∨ r.level = .debug := by
  rw [records, List.mem_append, List.mem_singleton] at h
  rcases h with h | rfl
  · split at h
    · cases h
    · rw [List.mem_singleton] at h
      subst h
      exact .inl rfl
  · exact .inr rfl

namespace Trace

variable {log : List Record}

theorem cases_of_mem (h : Trace b o pool log) {r : Record} (hr : r ∈ log) :
    (r.level = .warn ∨ r.level = .debug) ∨
      ∃ c, (Container.decode b o pool).outcome = .ok c ∧ r = c.summary := by
  have refused (hr : r ∈ refusals b o pool) : r.level = .warn ∨ r.level = .debug :=
    .inl (WorkerPool.level_of_mem_refusals hr)
  have told {texts : List Text} (hr : r ∈ StringTable.records texts o.effectiveWorkers) :
      r.level = .warn ∨ r.level = .debug :=
    StringTable.level_of_mem_records hr
  have body {c : Container} {xs : List ClassDef} (hr : r ∈ xs.flatMap (c.bodyRecords b)) :
      r.level = .warn ∨ r.level = .debug := by
    obtain ⟨y, _, hy⟩ := List.mem_flatMap.1 hr
    exact Container.level_of_mem_bodyRecords hy
  cases h with
  | header _ => cases hr
  | string _ _ _ => exact .inl (refused hr)
  | table _ _ _ => exact .inl ((List.mem_append.1 hr).elim refused told)
  | body _ _ hc _ _ _ =>
      simp only [List.mem_append, List.mem_singleton] at hr
      rcases hr with (((hr | hr) | rfl) | hr) | rfl
      · exact .inl (refused hr)
      · exact .inl (told hr)
      · exact .inr ⟨_, hc, rfl⟩
      · exact .inl (body hr)
      · exact .inl (.inr rfl)
  | whole _ _ hc _ =>
      simp only [List.mem_append, List.mem_singleton] at hr
      rcases hr with ((hr | hr) | rfl) | hr
      · exact .inl (refused hr)
      · exact .inl (told hr)
      · exact .inr ⟨_, hc, rfl⟩
      · exact .inl (body hr)

end Trace

end DexListing
