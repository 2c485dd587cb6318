import DexListing.Layout
import DexListing.Proofs.Code.Listed
import DexListing.Proofs.Failure.First

namespace DexListing

def FirstError (b : Bytes) (c : Check) (e : Error) : Prop :=
  ∃ before after, checks b = before ++ c :: after ∧ (∀ d ∈ before, d.error b = none) ∧
    c.error b = some e

/-- The check that decides an error: the first that fails or, past the header, any text that
fails. -/
inductive DecidingError (b : Bytes) : Check → Error → Prop where
  | first {c : Check} {e : Error} : FirstError b c e → DecidingError b c e
  | text {i : Nat} {e : Error} : Framed b → i < tableSize b .strings →
      (Check.entry .strings i).error b = some e → DecidingError b (.entry .strings i) e

def Check.Reports (b : Bytes) : Check → Report → Prop
  | magic, r => r.kind = .dexFormat ∧ r.contexts = []
  | length, r => r.kind = .bufferBounds ∧ r.contexts = []
  | extent t, r =>
      r.kind = .bufferBounds ∧
        r.contexts = [s!"{t.sectionName} table at 0x{hex (extentAt b t).offset.toNat}"]
  | entry .strings i, r =>
      (r.kind = .bufferBounds ∨ r.kind = .malformedVarint) ∧
        r.contexts = [s!"string data at 0x{hex (word32At b (entryAt b .strings i)).toNat}"]
  | entry .types i, r => r.kind = .unresolvedIndex ∧ r.contexts = [s!"type_id #{i}"]
  | entry .fields i, r => r.kind = .unresolvedIndex ∧ r.contexts = [s!"field_id #{i}"]
  | entry .methods i, r => r.kind = .unresolvedIndex ∧ r.contexts = [s!"method_id #{i}"]
  | entry .classes i, r =>
      r.kind = .unresolvedIndex ∧
        ∃ part ∈ ["class", "superclass", "source file"], r.contexts = [part, s!"class_def #{i}"]
  | body i, r =>
      r.kind = .bufferBounds ∧
        ∃ place ∈ [s!"code header at 0x{hex (codeOffsetAt b i).toNat}",
          s!"instructions at 0x{hex ((codeOffsetAt b i).toNat + 16)}"],
          r.contexts = [place, s!"while disassembling {classNameAt b i}"]

variable {b : Bytes} {e : Error}

theorem textAt_error {i : Nat} (h : StringTable.textAt b i = .error e) :
    e.places = [.stringData (word32At b (entryAt b .strings i))] ∧
      (e.kind = .bufferBounds ∨ e.kind = .malformedVarint) := by
  obtain ⟨d, hd, rfl⟩ := within_eq_error_iff.1 h
  obtain ⟨hp, hk⟩ := Text.read_error hd
  exact ⟨by rw [Error.within, hp]; rfl, hk⟩

theorem indexError_shape {t : Table} {i : UInt32} (h : indexError b t i = some e) :
    e.kind = .unresolvedIndex ∧ e.places = [] := by
  rw [indexError] at h
  split at h
  · cases h
  · cases h
    exact ⟨rfl, rfl⟩

theorem optionalError_shape {t : Table} {i : UInt32} (h : optionalError b t i = some e) :
    e.kind = .unresolvedIndex ∧ e.places = [] := by
  rw [optionalError] at h
  split at h
  · cases h
  · exact indexError_shape h

theorem fieldError_shape {p : Nat} (h : fieldError b p = some e) :
    e.kind = .unresolvedIndex ∧ e.places = [] := by
  simp only [fieldError, Option.or_eq_some_iff] at h
  rcases h with h | ⟨_, h | ⟨_, h⟩⟩ <;> exact indexError_shape h

theorem methodError_shape {p : Nat} (h : methodError b p = some e) :
    e.kind = .unresolvedIndex ∧ e.places = [] := by
  simp only [methodError, Option.or_eq_some_iff] at h
  rcases h with h | ⟨_, h⟩ <;> exact indexError_shape h

theorem classError_shape {p : Nat} (h : classError b p = some e) :
    e.kind = .unresolvedIndex ∧
      ∃ place ∈ [Place.className, .superclass, .sourceFile], e.places = [place] := by
  simp only [classError, Option.or_eq_some_iff, Option.map_eq_some_iff] at h
  rcases h with ⟨d, hd, rfl⟩ | ⟨_, ⟨d, hd, rfl⟩ | ⟨_, d, hd, rfl⟩⟩
  · obtain ⟨hk, hp⟩ := indexError_shape hd
    exact ⟨hk, .className, by simp, by rw [Error.within, hp]; rfl⟩
  · obtain ⟨hk, hp⟩ := optionalError_shape hd
    exact ⟨hk, .superclass, by simp, by rw [Error.within, hp]; rfl⟩
  · obtain ⟨hk, hp⟩ := optionalError_shape hd
    exact ⟨hk, .sourceFile, by simp, by rw [Error.within, hp]; rfl⟩

theorem codeError_shape {offset : UInt32} (h : codeError b offset = some e) :
    e.kind = .bufferBounds ∧
      ∃ place ∈ [Place.codeHeader offset, .instructions (offset.toNat + 16)],
        e.places = [place] := by
  rw [codeError] at h
  split at h
  · cases h
  · split at h
    · split at h
      · cases h
      · cases h
        exact ⟨rfl, .instructions (offset.toNat + 16), by simp, rfl⟩
    · cases h
      exact ⟨rfl, .codeHeader offset, by simp, rfl⟩

theorem contexts_within (place : Place) (d : Error) :
    (d.within place).report.contexts = d.places.map Place.text ++ [place.text] := by
  simp [Error.report, Error.within]

theorem Check.error_reports {c : Check} (h : c.error b = some e) : c.Reports b e.report := by
  cases c with
  | magic =>
      simp only [Check.error] at h
      split at h <;> cases h
      exact ⟨rfl, rfl⟩
  | length =>
      simp only [Check.error] at h
      split at h <;> cases h
      exact ⟨rfl, rfl⟩
  | extent t =>
      simp only [Check.error] at h
      split at h <;> cases h
      exact ⟨rfl, rfl⟩
  | entry t i =>
      cases t with
      | strings =>
          rw [Check.error, failure_eq_some_iff] at h
          obtain ⟨hp, hk⟩ := textAt_error h
          refine ⟨hk, ?_⟩
          rw [Error.report, hp]
          rfl
      | types =>
          obtain ⟨d, hd, rfl⟩ := Option.map_eq_some_iff.1 h
          obtain ⟨hk, hp⟩ := indexError_shape hd
          exact ⟨hk, by rw [contexts_within, hp]; rfl⟩
      | fields =>
          obtain ⟨d, hd, rfl⟩ := Option.map_eq_some_iff.1 h
          obtain ⟨hk, hp⟩ := fieldError_shape hd
          exact ⟨hk, by rw [contexts_within, hp]; rfl⟩
      | methods =>
          obtain ⟨d, hd, rfl⟩ := Option.map_eq_some_iff.1 h
          obtain ⟨hk, hp⟩ := methodError_shape hd
          exact ⟨hk, by rw [contexts_within, hp]; rfl⟩
      | classes =>
          obtain ⟨d, hd, rfl⟩ := Option.map_eq_some_iff.1 h
          obtain ⟨hk, place, hm, hp⟩ := classError_shape hd
          refine ⟨hk, place.text, ?_, ?_⟩
          · exact List.mem_map_of_mem (f := Place.text) hm
          · rw [contexts_within, hp]
            rfl
  | body i =>
      obtain ⟨d, hd, rfl⟩ := Option.map_eq_some_iff.1 h
      obtain ⟨hk, place, hm, hp⟩ := codeError_shape hd
      refine ⟨hk, place.text, ?_, ?_⟩
      · exact List.mem_map_of_mem (f := Place.text) hm
      · rw [contexts_within, hp]
        rfl

theorem findSome?_eq_some_iff_firstError :
    (checks b).findSome? (Check.error b) = some e ↔ ∃ c, FirstError b c e := by
  rw [List.findSome?_eq_some_iff]
  constructor
  · rintro ⟨before, c, after, hc, he, hn⟩
    exact ⟨c, before, after, hc, hn, he⟩
  · rintro ⟨c, before, after, hc, hn, he⟩
    exact ⟨before, c, after, hc, he, hn⟩

theorem framed_of_headerChecks (h : headerChecks.findSome? (Check.error b) = none) : Framed b :=
  failure_read_none_iff.1 h

section Decided

variable {o : Options} {pool : WorkerPool} {c : Check}

theorem failure_disassemble_of_prefersFirst (prefers : PrefersFirst b o pool) :
    failure (disassemble b o pool).outcome = (checks b).findSome? (Check.error b) := by
  rw [failure_disassemble, checks_eq, List.findSome?_append, List.findSome?_append]
  cases hh : headerChecks.findSome? (Check.error b) with
  | some e => rw [Option.some_or, Option.some_or]
  | none => rw [textFailure_of_prefersFirst (framed_of_headerChecks hh) prefers]

theorem outcome_eq_error_iff_firstError (prefers : PrefersFirst b o pool) :
    (disassemble b o pool).outcome = .error e ↔ ∃ c, FirstError b c e := by
  rw [← failure_eq_some_iff, failure_disassemble_of_prefersFirst prefers,
    findSome?_eq_some_iff_firstError]

theorem exists_decidingError (h : (disassemble b o pool).outcome = .error e) :
    ∃ c, DecidingError b c e := by
  rw [← failure_eq_some_iff, failure_disassemble] at h
  have first (whole : (checks b).findSome? (Check.error b) = some e) :
      ∃ c, DecidingError b c e := by
    obtain ⟨c, hc⟩ := findSome?_eq_some_iff_firstError.1 whole
    exact ⟨c, .first hc⟩
  rw [checks_eq, List.findSome?_append, List.findSome?_append] at first
  cases hh : headerChecks.findSome? (Check.error b) with
  | some d =>
      rw [hh, Option.some_or] at h first
      exact first h
  | none =>
      have framed := framed_of_headerChecks hh
      cases ht : textFailure b o pool with
      | some d =>
          rw [hh, ht] at h
          cases h
          obtain ⟨i, hi, fails⟩ := exists_check_of_textFailure framed ht
          exact ⟨_, .text framed hi fails⟩
      | none =>
          rw [hh, ht] at h
          rw [hh, (textFailure_eq_none_iff framed).1 ht] at first
          exact first h

theorem exists_pool_of_decidingError (several : 2 ≤ o.workers) (h : DecidingError b c e) :
    ∃ pool, (disassemble b o pool).outcome = .error e := by
  have sequential (first : ∃ c, FirstError b c e) :
      ∃ pool, (disassemble b o pool).outcome = .error e :=
    ⟨.unstarted "", (outcome_eq_error_iff_firstError (prefersFirst_unstarted b o "")).2 first⟩
  cases h with
  | first hc => exact sequential ⟨c, hc⟩
  | @text i _ framed hi fails =>
      have header := failure_read_none_iff.2 framed
      by_cases two : 2 ≤ tableSize b .strings
      · refine ⟨.cutAt i, ?_⟩
        rw [← failure_eq_some_iff, failure_disassemble, header,
          textFailure_cutAt framed several hi two fails]
        rfl
      · -- A single text is the first that fails.
        have one : tableSize b .strings = 1 := by omega
        obtain rfl : i = 0 := by omega
        refine sequential (findSome?_eq_some_iff_firstError.1 ?_)
        rw [checks_eq, List.findSome?_append, List.findSome?_append, header, tableChecks, one]
        simp [fails]

theorem DecidingError.fails (h : DecidingError b c e) : c.error b = some e := by
  cases h with
  | first hc =>
      obtain ⟨_, _, _, _, fails⟩ := hc
      exact fails
  | text _ _ fails => exact fails

end Decided

theorem Check.eq_magic_of_reports {c : Check} {r : Report} (h : c.Reports b r)
    (hk : r.kind = .dexFormat) : c = .magic := by
  cases c with
  | magic => rfl
  | length => exact absurd (hk.symm.trans h.1) (by decide)
  | extent t => exact absurd (hk.symm.trans h.1) (by decide)
  | entry t i =>
      cases t with
      | strings => rcases h.1 with h | h <;> exact absurd (hk.symm.trans h) (by decide)
      | types => exact absurd (hk.symm.trans h.1) (by decide)
      | fields => exact absurd (hk.symm.trans h.1) (by decide)
      | methods => exact absurd (hk.symm.trans h.1) (by decide)
      | classes => exact absurd (hk.symm.trans h.1) (by decide)
  | body i => exact absurd (hk.symm.trans h.1) (by decide)

theorem dexFormat_iff_not_startsWithMagic {o : Options} {pool : WorkerPool} :
    (∃ e, (disassemble b o pool).outcome = .error e ∧ e.kind = .dexFormat) ↔
      ¬ StartsWithMagic b := by
  constructor
  · rintro ⟨e, he, hk⟩ hm
    obtain ⟨c, hc⟩ := exists_decidingError he
    obtain rfl := Check.eq_magic_of_reports (Check.error_reports hc.fails) hk
    have fails := hc.fails
    simp [Check.error, hm] at fails
  · intro hm
    have fails : Check.magic.error b = some ⟨.badMagic (b.extract 0 4).toList, []⟩ := by
      simp [Check.error, hm]
    refine ⟨⟨.badMagic (b.extract 0 4).toList, []⟩, ?_, rfl⟩
    rw [← failure_eq_some_iff, failure_disassemble, headerChecks, List.findSome?_cons, fails]
    rfl

theorem not_mem_headerChecks_of_framed (h : Framed b) {c : Check} (hc : c.error b = some e) :
    c ∉ headerChecks := by
  intro hm
  have hn := List.findSome?_eq_none_iff.1 (failure_read_none_iff.2 h) c hm
  rw [hc] at hn
  cases hn

theorem outcome_ok_iff {o : Options} {pool : WorkerPool} :
    (∃ d, (disassemble b o pool).outcome = .ok d) ↔
      ∃ c, (Container.decode b o pool).outcome = .ok c ∧
        ∀ x ∈ c.classes, ∃ lines, (c.body b x).outcome = .ok lines := by
  have bodies (c : Container) :
      (∃ ys, (Run.each (c.classListing b) c.classes.toList).outcome = .ok ys) ↔
        ∀ x ∈ c.classes, ∃ lines, (c.body b x).outcome = .ok lines := by
    simp only [← failure_eq_none_iff, failure_each, List.findSome?_eq_none_iff,
      failure_classListing, Array.mem_toList_iff]
  simp only [← bodies, disassemble, Run.outcome_bind, Run.outcome_pure, bind_eq_ok_iff]
  constructor
  · rintro ⟨_, c, hc, ys, hy, _⟩
    exact ⟨c, hc, ys, hy⟩
  · rintro ⟨c, hc, ys, hy⟩
    exact ⟨_, c, hc, ys, hy, rfl⟩

theorem outcome_eq_ok_iff_of_workers {o o' : Options} {pool pool' : WorkerPool} {d : Listing} :
    (disassemble b o pool).outcome = .ok d ↔ (disassemble b o' pool').outcome = .ok d := by
  simp only [outcome_disassemble_eq_ok_iff, Container.decode_eq_ok_iff]

/-- The first phase that fails decides, and in it the first check that fails; but of several texts
that fail any may count, as the workers happen to share them out. -/
theorem outcome_decided_by_first_phase (b : Bytes) (o : Options) (pool : WorkerPool) :
    (∀ e, (disassemble b o pool).outcome = .error e → ∃ c, DecidingError b c e) ∧
      (PrefersFirst b o pool →
        ∀ e, (disassemble b o pool).outcome = .error e ↔ ∃ c, FirstError b c e) ∧
      (o.workers ≤ 1 ∨ (∃ reason, pool = .unstarted reason) → PrefersFirst b o pool) ∧
      (2 ≤ o.workers → ∀ c e, DecidingError b c e →
        ∃ other, (disassemble b o other).outcome = .error e) ∧
      ((∃ e, (disassemble b o pool).outcome = .error e ∧ e.kind = .dexFormat) ↔
        ¬ StartsWithMagic b) ∧
      (∀ header e, Header.read b = .ok header → (disassemble b o pool).outcome = .error e →
        ∃ c, c ∉ headerChecks ∧ DecidingError b c e ∧ c.Reports b e.report) ∧
      (∀ header t i, Header.read b = .ok header → i < (header.extent t).size.toNat →
        ∃ w, slice b ((header.extent t).offset.toNat + t.width * i) t.width = .ok w) ∧
      (∀ start n k, ensure b start (2 * n) = .ok () → k < n →
        ∃ w, slice b (start + 2 * k) 2 = .ok w) ∧
      ((∃ d, (disassemble b o pool).outcome = .ok d) ↔
        ∃ c, (Container.decode b o pool).outcome = .ok c ∧
          ∀ x ∈ c.classes, ∃ lines, (c.body b x).outcome = .ok lines) ∧
      ∀ d o' pool', (disassemble b o pool).outcome = .ok d ↔
        (disassemble b o' pool').outcome = .ok d := by
  refine ⟨fun e => exists_decidingError, fun prefers e => outcome_eq_error_iff_firstError prefers,
    ?_, fun several c e => exists_pool_of_decidingError several, dexFormat_iff_not_startsWithMagic,
    ?_, ?_, ?_, outcome_ok_iff, fun d o' pool' => outcome_eq_ok_iff_of_workers⟩
  · rintro (one | ⟨reason, rfl⟩)
    · exact prefersFirst_of_le one b pool
    · exact prefersFirst_unstarted b o reason
  · intro header e hr he
    obtain ⟨c, hc⟩ := exists_decidingError he
    exact ⟨c, not_mem_headerChecks_of_framed (Header.framed_of_read hr) hc.fails, hc,
      Check.error_reports hc.fails⟩
  · intro header t i hr hi
    obtain ⟨hf, rfl⟩ := Header.read_eq_ok_iff.1 hr
    rw [Header.extent_ofBytes] at hi ⊢
    exact ⟨_, slice_of_le (hf.entry_le hi)⟩
  · intro start n k hs hk
    rw [ensure] at hs
    split at hs
    · exact ⟨_, slice_of_le (by omega)⟩
    · cases hs

/-- Two string ids that point at a varint that does not end. -/
def overlong : Bytes :=
  ([0x64, 0x65, 0x78, 0x0A, 0x30, 0x33, 0x35, 0x00] ++ Layout.zeros 48 ++
    [2, 0, 0, 0, 0x70, 0, 0, 0] ++ Layout.zeros 48 ++ [0x78, 0, 0, 0, 0x7D, 0, 0, 0] ++
    List.replicate 10 0x80).toArray

theorem second_text_may_decide :
    let first : Error := ⟨.overlongVarint 0x78, [.stringData 0x78]⟩
    let second : Error := ⟨.overlongVarint 0x7D, [.stringData 0x7D]⟩
    FirstError overlong (.entry .strings 0) first ∧
      (disassemble overlong ⟨1⟩ (.cutAt 1)).outcome = .error first ∧
      (disassemble overlong ⟨8⟩ (.cutAt 1)).outcome = .error second ∧ second ≠ first := by
  refine ⟨⟨headerChecks, [.entry .strings 1], ?_, ?_, ?_⟩, ?_, ?_, ?_⟩ <;> decide +kernel

theorem outcome_decided_overlong :
    let first : Error := ⟨.overlongVarint 0x78, [.stringData 0x78]⟩
    let second : Error := ⟨.overlongVarint 0x7D, [.stringData 0x7D]⟩
    (∃ c, c ∉ headerChecks ∧ DecidingError overlong c second ∧
        c.Reports overlong second.report) ∧
      (disassemble overlong ⟨8⟩ (.unstarted "")).outcome = .error first ∧
      ∃ pool, (disassemble overlong ⟨8⟩ pool).outcome = .error second := by
  intro first second
  have hf : Framed overlong :=
    ⟨by decide +kernel, by decide +kernel, fun t => by cases t <;> decide +kernel⟩
  have failed : (disassemble overlong ⟨8⟩ (.cutAt 1)).outcome = .error second := by decide +kernel
  have fails : (Check.entry .strings 0).error overlong = some first := by decide +kernel
  have passed : ∀ d ∈ headerChecks, d.error overlong = none := by decide +kernel
  have before : FirstError overlong (.entry .strings 0) first :=
    ⟨headerChecks, [.entry .strings 1], by decide +kernel, passed, fails⟩
  obtain ⟨-, -, -, other, -, shape, -⟩ := outcome_decided_by_first_phase overlong ⟨8⟩ (.cutAt 1)
  obtain ⟨-, decided, prefers, -⟩ := outcome_decided_by_first_phase overlong ⟨8⟩ (.unstarted "")
  obtain ⟨c, past, deciding, reports⟩ := shape _ _ (Header.read_of_framed hf) failed
  exact ⟨⟨c, past, deciding, reports⟩,
    (decided (prefers (.inr ⟨"", rfl⟩)) first).2 ⟨_, before⟩,
    other (by decide) c second deciding⟩

end DexListing
