import DexListing.Proofs.Code.Units
import DexListing.Proofs.Failure.Check

namespace DexListing

variable {b : Bytes}

theorem failure_resolve {t : Table} {pool : Array String} (hn : pool.size = tableSize b t)
    (i : UInt32) : failure (resolve t pool i) = indexError b t i := by
  rw [indexError]
  cases hr : resolve t pool i with
  | ok s =>
      have hi := (Array.getElem?_eq_some_iff.1 (resolve_eq_ok_iff.1 hr)).1
      rw [if_pos (hn ▸ hi)]
      rfl
  | error e =>
      obtain ⟨hi, rfl⟩ := resolve_eq_error_iff.1 hr
      rw [if_neg (by omega), hn]
      rfl

theorem failure_optional {t : Table} {pool : Array String} (hn : pool.size = tableSize b t)
    (i : UInt32) : failure (optional i (resolve t pool)) = optionalError b t i := by
  rw [optional, optionalError]
  split
  · rfl
  · rw [failure_map, failure_resolve hn]

section Record

variable {pools : Pools} (hs : pools.strings.size = tableSize b .strings)
  (ht : pools.types.size = tableSize b .types) (p : Nat)

include hs ht

theorem failure_field : failure (FieldRef.parse pools (window b p 8)) = fieldError b p := by
  simp only [FieldRef.parse, u16_window, u32_window, Pools.type, Pools.string, Nat.add_zero]
  rw [fieldError, ← failure_resolve ht, ← failure_resolve ht, ← failure_resolve hs]
  refine failure_bind fun _ _ => failure_bind fun _ _ => ?_
  exact failure_bind_pure ..

theorem failure_method : failure (MethodRef.parse pools (window b p 8)) = methodError b p := by
  simp only [MethodRef.parse, u16_window, u32_window, Pools.type, Pools.string, Nat.add_zero]
  rw [methodError, ← failure_resolve ht, ← failure_resolve hs]
  refine failure_bind fun _ _ => ?_
  exact failure_bind_pure ..

theorem failure_class : failure (ClassDef.parse pools (window b p 32)) = classError b p := by
  have hy : pools.type = resolve .types pools.types := rfl
  have hx : pools.string = resolve .strings pools.strings := rfl
  simp only [ClassDef.parse, u32_window, hy, hx, Nat.add_zero]
  rw [classError, ← failure_resolve ht, ← failure_optional ht, ← failure_optional hs,
    ← failure_within, ← failure_within, ← failure_within]
  refine failure_bind fun _ _ => failure_bind fun _ _ => ?_
  exact failure_bind_pure ..

end Record

theorem failure_table {α : Type} {t : Table} {f : Nat → Except Error α}
    (h : ∀ i < tableSize b t, failure (f i) = (Check.entry t i).error b) :
    failure (collect (tableSize b t) f) = (tableChecks b t).findSome? (Check.error b) := by
  rw [failure_collect, tableChecks, List.findSome?_map]
  refine findSome?_eq_range List.length_range fun i hi => ?_
  rw [List.length_range] at hi
  rw [List.getElem_range]
  exact h i hi

def textFailure (b : Bytes) (o : Options) (pool : WorkerPool) : Option Error :=
  failure (StringTable.decode b (extentAt b .strings) o.effectiveWorkers pool).outcome

def PrefersFirst (b : Bytes) (o : Options) (pool : WorkerPool) : Prop :=
  (pool.split o.effectiveWorkers (StringTable.offsetsAt b (extentAt b .strings))).PrefersLeft b

theorem prefersFirst_of_le {o : Options} (h : o.workers ≤ 1) (b : Bytes) (pool : WorkerPool) :
    PrefersFirst b o pool := by
  have one : o.effectiveWorkers ≤ 1 := Nat.max_le.2 ⟨h, Nat.le_refl 1⟩
  rw [PrefersFirst, WorkerPool.split_of_le one]
  trivial

theorem prefersFirst_unstarted (b : Bytes) (o : Options) (reason : String) :
    PrefersFirst b o (.unstarted reason) :=
  trivial

section Texts

variable {o : Options} {pool : WorkerPool} {e : Error}

theorem failure_textAt (b : Bytes) :
    failure (collect (tableSize b .strings) fun i => (StringTable.textAt b i).map Text.value) =
      (tableChecks b .strings).findSome? (Check.error b) :=
  failure_table fun i _ => failure_map Text.value (x := StringTable.textAt b i)

theorem textFailure_of_prefersFirst (h : Framed b) (prefers : PrefersFirst b o pool) :
    textFailure b o pool = (tableChecks b .strings).findSome? (Check.error b) := by
  rw [textFailure, StringTable.outcome_decode_of_prefersLeft (h.inside .strings) prefers]
  exact failure_textAt b

theorem textFailure_eq_none_iff (h : Framed b) :
    textFailure b o pool = none ↔ (tableChecks b .strings).findSome? (Check.error b) = none := by
  rw [textFailure, ← failure_textAt, failure_eq_none_iff, failure_eq_none_iff]
  simp only [StringTable.outcome_decode_eq_ok_iff h]

theorem exists_check_of_textFailure (h : Framed b) (failed : textFailure b o pool = some e) :
    ∃ i < tableSize b .strings, (Check.entry .strings i).error b = some e := by
  obtain ⟨i, hi, fails⟩ :=
    StringTable.exists_textAt_of_decode_error h (failure_eq_some_iff.1 failed)
  exact ⟨i, hi, failure_eq_some_iff.2 fails⟩

theorem textFailure_cutAt (h : Framed b) (several : 2 ≤ o.workers) {i : Nat}
    (hi : i < tableSize b .strings) (two : 2 ≤ tableSize b .strings)
    (fails : (Check.entry .strings i).error b = some e) :
    textFailure b o (.cutAt i) = some e := by
  have workers : 2 ≤ o.effectiveWorkers := Nat.le_trans several (Nat.le_max_left _ _)
  have long : 2 ≤ (StringTable.offsetsAt b (extentAt b .strings)).length := by
    rw [StringTable.length_offsetsAt]
    exact two
  rw [textFailure, StringTable.outcome_decode_of_inside (h.inside .strings),
    WorkerPool.entries_cutAt workers long (StringTable.getElem?_offsetsAt hi)
      (failure_eq_some_iff.1 fails)]
  rfl

end Texts

def recordChecks (b : Bytes) : List Check :=
  tableChecks b .types ++ tableChecks b .fields ++ tableChecks b .methods ++ tableChecks b .classes

theorem failure_decode_of_framed (h : Framed b) (o : Options) (pool : WorkerPool) :
    failure (Container.decode b o pool).outcome =
      (textFailure b o pool).or ((recordChecks b).findSome? (Check.error b)) := by
  rw [Container.outcome_decode_of_framed h, recordChecks]
  simp only [List.findSome?_append, Option.or_assoc]
  refine failure_bind fun strings hs => ?_
  rw [StringTable.outcome_decode_eq_ok_iff h] at hs
  replace hs := (collect_eq_ok_iff.1 hs).1
  rw [← failure_table (t := .types) fun i _ => by
    rw [Check.error, ← failure_resolve hs, ← failure_within]]
  refine failure_bind fun types ht => ?_
  replace ht := (collect_eq_ok_iff.1 ht).1
  have ps : (Pools.mk strings types).strings.size = tableSize b .strings := hs
  have pt : (Pools.mk strings types).types.size = tableSize b .types := ht
  rw [← failure_table (t := .fields) fun i _ => by
      rw [Check.error, ← failure_field ps pt, ← failure_within],
    ← failure_table (t := .methods) fun i _ => by
      rw [Check.error, ← failure_method ps pt, ← failure_within],
    ← failure_table (t := .classes) fun i _ => by
      rw [Check.error, ← failure_class ps pt, ← failure_within]]
  refine failure_bind fun fields _ => failure_bind fun methods _ => ?_
  exact failure_bind_pure ..

theorem failure_units (b : Bytes) (offset : UInt32) :
    failure (Code.units b offset) = codeError b offset := by
  rw [codeError]
  split
  next h => rw [h, Code.units_zero]; rfl
  next h =>
    split
    next hp =>
      split
      next hs => rw [Code.units_of_le h hs]; rfl
      next hs => rw [Code.units_of_lt h hp (Nat.not_le.1 hs)]; rfl
    next hp => rw [Code.units_of_short h (Nat.not_le.1 hp)]; rfl

theorem failure_body (c : Container) (b : Bytes) (x : ClassDef) :
    failure (c.body b x).outcome =
      (codeError b x.dataOffset).map (Error.within (.body x.name)) := by
  rw [← failure_units, Container.outcome_body, failure_within, Dalvik.outcome_listing, failure_map]

theorem failure_classListing (c : Container) (b : Bytes) (x : ClassDef) :
    failure (c.classListing b x).outcome = failure (c.body b x).outcome := by
  rw [Container.classListing, Run.outcome_bind]
  exact failure_bind_pure ..

theorem failure_each {α β : Type} (f : α → Run β) (xs : List α) :
    failure (Run.each f xs).outcome = xs.findSome? fun x => failure (f x).outcome := by
  induction xs with
  | nil => rfl
  | cons x xs ih =>
      rw [findSome?_cons_or, ← ih]
      simp only [Run.each, Run.outcome_bind]
      refine failure_bind fun y _ => ?_
      exact failure_bind_pure ..

namespace Container.Describes

variable {c : Container} (hd : c.Describes b) {i : Nat} {s : String}

include hd

theorem string_eq (h : c.tables.strings[i]? = some s) : s = stringAt b i := by
  obtain ⟨hi, rfl⟩ := Array.getElem?_eq_some_iff.1 h
  obtain ⟨t, ht, hv⟩ := hd.strings i hi
  have he : StringTable.textAt b i = .ok t := by
    rw [StringTable.textAt, StringTable.entry, within_eq_ok_iff, Text.read_eq_ok_iff]
    exact ht
  rw [hv, stringAt, he]

theorem type_eq (h : c.tables.types[i]? = some s) : s = typeAt b i := by
  obtain ⟨hi, rfl⟩ := Array.getElem?_eq_some_iff.1 h
  exact hd.string_eq (hd.types i hi)

theorem body_check (hi : i < c.classes.size) :
    failure (c.classListing b c.classes[i]).outcome = (Check.body i).error b := by
  have hc := hd.classes i hi
  rw [failure_classListing, failure_body, Check.error, hc.dataOffset, hd.type_eq hc.name]
  rfl

theorem failure_classes :
    failure (Run.each (c.classListing b) c.classes.toList).outcome =
      (bodyChecks b).findSome? (Check.error b) := by
  rw [failure_each, bodyChecks, List.findSome?_map]
  refine findSome?_eq_range (by rw [Array.length_toList, hd.classes_size]) fun i hi => ?_
  rw [Array.getElem_toList]
  exact hd.body_check (by simpa using hi)

end Container.Describes

theorem failure_read_none_iff : headerChecks.findSome? (Check.error b) = none ↔ Framed b := by
  rw [← failure_read, failure_eq_none_iff]
  constructor
  · rintro ⟨h, hr⟩
    exact Header.framed_of_read hr
  · intro h
    exact ⟨_, Header.read_of_framed h⟩

def laterChecks (b : Bytes) : List Check :=
  recordChecks b ++ bodyChecks b

theorem checks_eq (b : Bytes) :
    checks b = headerChecks ++ (tableChecks b .strings ++ laterChecks b) := by
  simp only [checks, laterChecks, recordChecks, List.append_assoc]

theorem failure_disassemble (b : Bytes) (o : Options) (pool : WorkerPool) :
    failure (disassemble b o pool).outcome =
      (headerChecks.findSome? (Check.error b)).or
        ((textFailure b o pool).or ((laterChecks b).findSome? (Check.error b))) := by
  rw [outcome_disassemble]
  cases hh : headerChecks.findSome? (Check.error b) with
  | some e =>
      have hr : Header.read b = .error e := by rw [← failure_eq_some_iff, failure_read, hh]
      rw [Container.outcome_decode, hr]
      rfl
  | none =>
      have hf := failure_read_none_iff.1 hh
      rw [Option.none_or, laterChecks, List.findSome?_append, ← Option.or_assoc,
        ← failure_decode_of_framed hf o pool]
      refine failure_bind fun c hd => ?_
      rw [failure_bind_pure]
      exact ((Container.decode_eq_ok_iff_of_framed hf).1 hd).failure_classes

end DexListing
