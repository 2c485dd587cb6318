import DexListing.Proofs.Failure.Header

namespace DexListing

structure Reference where
  table : Table
  pool : Array String
  index : UInt32
  optional : Bool
  contexts : List String
  deriving DecidableEq

namespace Reference

/-- Only an optional index can be absent, and then whatever the length of the pool. -/
def Dangles (r : Reference) : Prop :=
  r.pool.size ≤ r.index.toNat ∧ ¬ (r.optional = true ∧ r.index = noIndex)

instance (r : Reference) : Decidable r.Dangles :=
  inferInstanceAs (Decidable (_ ∧ _))

def report (r : Reference) : Report :=
  ⟨.unresolvedIndex,
    s!"{r.table.noun} index {r.index.toNat} out of range ({r.table.plural}.len={r.pool.size})",
    r.contexts⟩

def defect (r : Reference) : Option Report :=
  if r.Dangles then some r.report else none

theorem defect_eq_some_iff {r : Reference} {report : Report} :
    r.defect = some report ↔ r.Dangles ∧ r.report = report := by
  rw [defect]
  split
  next h => simp [h]
  next h => simp [h]

theorem defect_eq_none_iff {r : Reference} : r.defect = none ↔ ¬ r.Dangles := by
  simp [defect]

def within (place : Place) (r : Reference) : Reference :=
  { r with contexts := r.contexts ++ [place.text] }

theorem defect_within (place : Place) (r : Reference) :
    (r.within place).defect =
      r.defect.map fun report => { report with contexts := report.contexts ++ [place.text] } := by
  have same : (r.within place).Dangles ↔ r.Dangles := Iff.rfl
  rw [defect, defect]
  by_cases dangles : r.Dangles
  · rw [if_pos dangles, if_pos (same.2 dangles)]
    rfl
  · rw [if_neg dangles, if_neg (mt same.1 dangles)]
    rfl

end Reference

theorem Error.report_within (place : Place) (e : Error) :
    (e.within place).report =
      { e.report with contexts := e.report.contexts ++ [place.text] } := by
  rw [report, report, within, List.map_append]
  rfl

def FirstDangling (refs : List Reference) (r : Reference) : Prop :=
  ∃ before after, refs = before ++ r :: after ∧ (∀ s ∈ before, ¬ s.Dangles) ∧ r.Dangles

def LooksUp {α : Type} (refs : List Reference) (x : Except Error α) : Prop :=
  (failure x).map Error.report = refs.findSome? Reference.defect

namespace LooksUp

variable {α β : Type} {t : Table} {pool : Array String} {i : UInt32} {refs : List Reference}

theorem pure (a : α) : LooksUp [] (Pure.pure a : Except Error α) := rfl

theorem bind {r : Reference} {x : Except Error α} {f : α → Except Error β} (first : LooksUp [r] x)
    (others : ∀ a, LooksUp refs (f a)) : LooksUp (r :: refs) (x >>= f) := by
  rw [LooksUp, findSome?_cons_or]
  rw [LooksUp, List.findSome?_singleton] at first
  cases x with
  | error e =>
      rw [← first]
      rfl
  | ok a =>
      rw [← first]
      exact others a

theorem required (t : Table) (pool : Array String) (i : UInt32) :
    LooksUp [⟨t, pool, i, false, []⟩] (resolve t pool i) := by
  rw [LooksUp, List.findSome?_singleton, Reference.defect]
  cases found : resolve t pool i with
  | ok s =>
      have inside := (Array.getElem?_eq_some_iff.1 (resolve_eq_ok_iff.1 found)).1
      rw [if_neg fun dangles => Nat.not_le.2 inside dangles.1]
      rfl
  | error e =>
      obtain ⟨outside, rfl⟩ := resolve_eq_error_iff.1 found
      rw [if_pos ⟨outside, by simp⟩]
      rfl

theorem optional (t : Table) (pool : Array String) (i : UInt32) :
    LooksUp [⟨t, pool, i, true, []⟩] (DexListing.optional i (resolve t pool)) := by
  rw [DexListing.optional]
  split
  next absent =>
    rw [LooksUp, List.findSome?_singleton, Reference.defect,
      if_neg fun dangles => dangles.2 ⟨rfl, absent⟩]
    rfl
  next present =>
    have looked := required t pool i
    rw [LooksUp, List.findSome?_singleton] at looked ⊢
    rw [failure_map, looked, Reference.defect, Reference.defect]
    simp [Reference.Dangles, Reference.report, present]

theorem within {r : Reference} {x : Except Error α} (looked : LooksUp [r] x) (place : Place) :
    LooksUp [r.within place] (DexListing.within place x) := by
  rw [LooksUp, List.findSome?_singleton] at looked ⊢
  rw [failure_within, Option.map_map, Reference.defect_within, ← looked, Option.map_map]
  exact congrArg (fun reporting => (failure x).map reporting) (funext (Error.report_within place))

theorem reported_eq_error_iff {x : Except Error α} (looked : LooksUp refs x) {report : Report} :
    reported x = .error report ↔ ∃ r, FirstDangling refs r ∧ r.report = report := by
  have first : reported x = .error report ↔ refs.findSome? Reference.defect = some report := by
    rw [← looked, DexListing.reported_eq_error_iff, Option.map_eq_some_iff]
    simp only [failure_eq_some_iff]
  rw [first, List.findSome?_eq_some_iff]
  constructor
  · rintro ⟨before, r, after, split, found, others⟩
    obtain ⟨dangles, same⟩ := Reference.defect_eq_some_iff.1 found
    exact ⟨r, ⟨before, after, split, fun s hs => Reference.defect_eq_none_iff.1 (others s hs),
      dangles⟩, same⟩
  · rintro ⟨r, ⟨before, after, split, others, dangles⟩, same⟩
    exact ⟨before, r, after, split, Reference.defect_eq_some_iff.2 ⟨dangles, same⟩,
      fun s hs => Reference.defect_eq_none_iff.2 (others s hs)⟩

theorem kind_of_error {x : Except Error α} (looked : LooksUp refs x) {e : Error}
    (failed : x = .error e) : e.kind = .unresolvedIndex := by
  have reported : reported x = .error e.report := by rw [failed]; rfl
  obtain ⟨r, -, same⟩ := looked.reported_eq_error_iff.1 reported
  exact (congrArg Report.kind same).symm

theorem exists_ok_iff {x : Except Error α} (looked : LooksUp refs x) :
    (∃ a, x = .ok a) ↔ ∀ r ∈ refs, ¬ r.Dangles := by
  rw [← failure_eq_none_iff, ← Option.map_eq_none_iff (f := Error.report), looked,
    List.findSome?_eq_none_iff]
  simp only [Reference.defect_eq_none_iff]

end LooksUp

section Records

variable (pools : Pools) (b : Bytes) (p : Nat)

def FieldRef.references : List Reference :=
  [⟨.types, pools.types, (word16At b p).toUInt32, false, []⟩,
    ⟨.types, pools.types, (word16At b (p + 2)).toUInt32, false, []⟩,
    ⟨.strings, pools.strings, word32At b (p + 4), false, []⟩]

def MethodRef.references : List Reference :=
  [⟨.types, pools.types, (word16At b p).toUInt32, false, []⟩,
    ⟨.strings, pools.strings, word32At b (p + 4), false, []⟩]

def ClassDef.references : List Reference :=
  [⟨.types, pools.types, word32At b p, false, ["class"]⟩,
    ⟨.types, pools.types, word32At b (p + 8), true, ["superclass"]⟩,
    ⟨.strings, pools.strings, word32At b (p + 16), true, ["source file"]⟩]

theorem FieldRef.looksUp_parse :
    LooksUp (FieldRef.references pools b p) (FieldRef.parse pools (window b p 8)) := by
  simp only [parse, u16_window, u32_window, Pools.type, Pools.string, Nat.add_zero]
  exact (LooksUp.required ..).bind fun _ => (LooksUp.required ..).bind fun _ =>
    (LooksUp.required ..).bind fun _ => LooksUp.pure _

theorem MethodRef.looksUp_parse :
    LooksUp (MethodRef.references pools b p) (MethodRef.parse pools (window b p 8)) := by
  simp only [parse, u16_window, u32_window, Pools.type, Pools.string, Nat.add_zero]
  exact (LooksUp.required ..).bind fun _ => (LooksUp.required ..).bind fun _ => LooksUp.pure _

theorem ClassDef.looksUp_parse :
    LooksUp (ClassDef.references pools b p) (ClassDef.parse pools (window b p 32)) := by
  have types : pools.type = resolve .types pools.types := rfl
  have strings : pools.string = resolve .strings pools.strings := rfl
  simp only [parse, u32_window, types, strings, Nat.add_zero]
  exact ((LooksUp.required ..).within .className).bind fun _ =>
    ((LooksUp.optional ..).within .superclass).bind fun _ =>
      ((LooksUp.optional ..).within .sourceFile).bind fun _ => LooksUp.pure _

end Records

structure ResolvesInOrder {α : Type} (refs : List Reference) (Stands : α → Prop)
    (x : Except Error α) : Prop where
  ok : ∀ a, x = .ok a ↔ Stands a
  exists_ok : (∃ a, x = .ok a) ↔ ∀ r ∈ refs, ¬ r.Dangles
  error : ∀ report, reported x = .error report ↔ ∃ r, FirstDangling refs r ∧ r.report = report

theorem LooksUp.resolvesInOrder {α : Type} {refs : List Reference} {Stands : α → Prop}
    {x : Except Error α} (looked : LooksUp refs x) (ok : ∀ a, x = .ok a ↔ Stands a) :
    ResolvesInOrder refs Stands x :=
  ⟨ok, looked.exists_ok_iff, fun _ => looked.reported_eq_error_iff⟩

theorem eq_none_iff_of_optionalEntry {pool : Array String} {i : UInt32} {s : Option String}
    (entry : OptionalEntry pool i s) : s = none ↔ i = noIndex := by
  rcases entry with ⟨absent, none⟩ | ⟨present, x, -, some⟩
  · exact iff_of_true none absent
  · exact iff_of_false (by simp [some]) present

/-- A record whose bytes are there is made of the entries at its own indices, or fails as the
first index that has no entry. Only a superclass and a source file can be absent. -/
theorem records_resolve_in_order (pools : Pools) (b : Bytes) (p : Nat) :
    (p + 8 ≤ b.size → ResolvesInOrder (FieldRef.references pools b p)
      (fun x => x.StandsAt pools b p) (FieldRef.reader pools b p).result) ∧
      (p + 8 ≤ b.size → ResolvesInOrder (MethodRef.references pools b p)
        (fun x => x.StandsAt pools b p) (MethodRef.reader pools b p).result) ∧
      (p + 32 ≤ b.size → ResolvesInOrder (ClassDef.references pools b p)
        (fun x => x.StandsAt pools b p) (ClassDef.reader pools b p).result) ∧
      ∀ x, (ClassDef.reader pools b p).result = .ok x →
        (x.superclass = none ↔ word32At b (p + 8) = noIndex) ∧
          (x.sourceFile = none ↔ word32At b (p + 16) = noIndex) := by
  refine ⟨fun inside => ?_, fun inside => ?_, fun inside => ?_, fun x read => ?_⟩
  · rw [FieldRef.reader, Reader.record_of_le _ inside]
    exact (FieldRef.looksUp_parse pools b p).resolvesInOrder fun _ => FieldRef.parse_window_eq_ok_iff
  · rw [MethodRef.reader, Reader.record_of_le _ inside]
    exact (MethodRef.looksUp_parse pools b p).resolvesInOrder fun _ =>
      MethodRef.parse_window_eq_ok_iff
  · rw [ClassDef.reader, Reader.record_of_le _ inside]
    exact (ClassDef.looksUp_parse pools b p).resolvesInOrder fun _ => ClassDef.parse_window_eq_ok_iff
  · obtain ⟨-, stands⟩ := ClassDef.reader_eq_ok_iff.1 read
    exact ⟨eq_none_iff_of_optionalEntry stands.superclass,
      eq_none_iff_of_optionalEntry stands.sourceFile⟩

theorem records_resolve_in_order_sample :
    let pools : Pools := ⟨#["Main.java"], #["LMain;", "LBase;"]⟩
    let whole := (Layout.ClassIds.bytes ⟨1, ⟨0xFFFFFFFF⟩, none, some 0, none⟩ 0x70).toArray
    let twice := (Layout.ClassIds.bytes ⟨0, ⟨0⟩, some 2, some 9, none⟩ 0).toArray
    let nameless := (Layout.ClassIds.bytes ⟨noIndex, ⟨0⟩, some 2, none, none⟩ 0).toArray
    let field := (Layout.FieldIds.bytes ⟨1, 2, 1⟩).toArray
    let method := (Layout.MethodIds.bytes ⟨1, 0xFFFF, 0⟩).toArray
    let x : ClassDef := ⟨"LBase;", ⟨0xFFFFFFFF⟩, none, some "Main.java", 0x70⟩
    (ClassDef.reader pools whole 0).result = .ok x ∧ x.superclass = none ∧
      reported (ClassDef.reader pools twice 0).result =
        .error ⟨.unresolvedIndex, "type index 2 out of range (types.len=2)", ["superclass"]⟩ ∧
      reported (ClassDef.reader pools nameless 0).result =
        .error ⟨.unresolvedIndex, "type index 4294967295 out of range (types.len=2)", ["class"]⟩ ∧
      reported (FieldRef.reader pools field 0).result =
        .error ⟨.unresolvedIndex, "type index 2 out of range (types.len=2)", []⟩ ∧
      (MethodRef.reader pools method 0).result = .ok ⟨"LBase;", "Main.java", 0xFFFF⟩ := by
  intro pools whole twice nameless field method x
  have read : (ClassDef.reader pools whole 0).result = .ok x := by decide +kernel
  obtain ⟨-, -, -, absent⟩ := records_resolve_in_order pools whole 0
  obtain ⟨-, -, second, -⟩ := records_resolve_in_order pools twice 0
  obtain ⟨-, -, first, -⟩ := records_resolve_in_order pools nameless 0
  obtain ⟨fields, -, -, -⟩ := records_resolve_in_order pools field 0
  obtain ⟨-, methods, -, -⟩ := records_resolve_in_order pools method 0
  refine ⟨read, (absent x read).1.2 (by decide +kernel), ?_, ?_, ?_, ?_⟩
  · refine ((second (by decide)).error _).2
      ⟨⟨.types, pools.types, word32At twice 8, true, ["superclass"]⟩, ?_, by decide +kernel⟩
    exact ⟨[_], [_], rfl, by decide +kernel, by decide +kernel⟩
  · refine ((first (by decide)).error _).2
      ⟨⟨.types, pools.types, word32At nameless 0, false, ["class"]⟩, ?_, by decide +kernel⟩
    exact ⟨[], [_, _], rfl, by decide +kernel, by decide +kernel⟩
  · refine ((fields (by decide)).error _).2
      ⟨⟨.types, pools.types, (word16At field 2).toUInt32, false, []⟩, ?_, by decide +kernel⟩
    exact ⟨[_], [_], rfl, by decide +kernel, by decide +kernel⟩
  · exact ((methods (by decide)).ok _).2 ⟨by decide +kernel, by decide +kernel, by decide +kernel⟩

end DexListing
