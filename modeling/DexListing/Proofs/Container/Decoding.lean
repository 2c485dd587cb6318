import DexListing.Proofs.Container.Phase
import DexListing.Proofs.Container.Record
import Mathlib.Tactic.Choose

namespace DexListing

structure WellFormed (b : Bytes) : Prop extends Framed b where
  strings : ∀ i < tableSize b .strings,
    ∃ t, Text.StoredAt b (word32At b (entryAt b .strings i)).toNat t
  types : ∀ i < tableSize b .types,
    (word32At b (entryAt b .types i)).toNat < tableSize b .strings
  fields : ∀ i < tableSize b .fields,
    (word16At b (entryAt b .fields i)).toNat < tableSize b .types ∧
      (word16At b (entryAt b .fields i + 2)).toNat < tableSize b .types ∧
      (word32At b (entryAt b .fields i + 4)).toNat < tableSize b .strings
  methods : ∀ i < tableSize b .methods,
    (word16At b (entryAt b .methods i)).toNat < tableSize b .types ∧
      (word32At b (entryAt b .methods i + 4)).toNat < tableSize b .strings
  classes : ∀ i < tableSize b .classes,
    (word32At b (entryAt b .classes i)).toNat < tableSize b .types ∧
      (word32At b (entryAt b .classes i + 8) = noIndex ∨
        (word32At b (entryAt b .classes i + 8)).toNat < tableSize b .types) ∧
      (word32At b (entryAt b .classes i + 16) = noIndex ∨
        (word32At b (entryAt b .classes i + 16)).toNat < tableSize b .strings)

namespace Container

structure Describes (c : Container) (b : Bytes) : Prop where
  magic : c.header.magic = window b 0 8
  extent : ∀ t, c.header.extent t = extentAt b t
  strings_size : c.tables.strings.size = tableSize b .strings
  strings : ∀ i, (h : i < c.tables.strings.size) →
    ∃ t, Text.StoredAt b (word32At b (entryAt b .strings i)).toNat t ∧
      c.tables.strings[i] = t.value
  types_size : c.tables.types.size = tableSize b .types
  types : ∀ i, (h : i < c.tables.types.size) →
    c.tables.strings[(word32At b (entryAt b .types i)).toNat]? = some c.tables.types[i]
  fields_size : c.tables.fields.size = tableSize b .fields
  fields : ∀ i, (h : i < c.tables.fields.size) →
    c.tables.fields[i].StandsAt c.tables.toPools b (entryAt b .fields i)
  methods_size : c.tables.methods.size = tableSize b .methods
  methods : ∀ i, (h : i < c.tables.methods.size) →
    c.tables.methods[i].StandsAt c.tables.toPools b (entryAt b .methods i)
  classes_size : c.classes.size = tableSize b .classes
  classes : ∀ i, (h : i < c.classes.size) →
    c.classes[i].StandsAt c.tables.toPools b (entryAt b .classes i)

theorem framed_of_decode {b : Bytes} {o : Options} {pool : WorkerPool} {c : Container}
    (h : (decode b o pool).outcome = .ok c) : Framed b := by
  rw [outcome_decode, bind_eq_ok_iff] at h
  obtain ⟨header, hr, _⟩ := h
  exact Header.framed_of_read hr

theorem eq_ofBytes_iff {b : Bytes} {header : Header} :
    header = Header.ofBytes b ↔
      header.magic = window b 0 8 ∧ ∀ t, header.extent t = extentAt b t := by
  constructor
  · rintro rfl
    exact ⟨Header.magic_ofBytes b, Header.extent_ofBytes b⟩
  · rintro ⟨hm, hx⟩
    have hs := (hx .strings).trans (Header.extent_ofBytes b .strings).symm
    have ht := (hx .types).trans (Header.extent_ofBytes b .types).symm
    have hf := (hx .fields).trans (Header.extent_ofBytes b .fields).symm
    have hd := (hx .methods).trans (Header.extent_ofBytes b .methods).symm
    have hc := (hx .classes).trans (Header.extent_ofBytes b .classes).symm
    have hm := hm.trans (Header.magic_ofBytes b).symm
    cases header
    simp_all [Header.extent]

theorem textAt_map_eq_ok_iff {b : Bytes} {i : Nat} {s : String} :
    (StringTable.textAt b i).map Text.value = .ok s ↔
      ∃ t, Text.StoredAt b (word32At b (entryAt b .strings i)).toNat t ∧ s = t.value := by
  simp only [map_eq_ok_iff, StringTable.textAt, StringTable.entry, within_eq_ok_iff,
    Text.read_eq_ok_iff]
  exact exists_congr fun t => and_congr_right fun _ => eq_comm

theorem decode_eq_ok_iff_of_framed {b : Bytes} (h : Framed b) {o : Options} {pool : WorkerPool}
    {c : Container} : (decode b o pool).outcome = .ok c ↔ c.Describes b := by
  rw [outcome_decode_of_framed h]
  simp only [bind_eq_ok_iff, StringTable.outcome_decode_eq_ok_iff h, collect_eq_ok_iff,
    within_eq_ok_iff, resolve_eq_ok_iff, textAt_map_eq_ok_iff, FieldRef.parse_window_eq_ok_iff,
    MethodRef.parse_window_eq_ok_iff, ClassDef.parse_window_eq_ok_iff]
  constructor
  · rintro ⟨strings, ⟨hs, hs'⟩, types, ⟨ht, ht'⟩, fields, ⟨hf, hf'⟩, methods, ⟨hm, hm'⟩, classes,
      ⟨hc, hc'⟩, hx⟩
    cases hx
    obtain ⟨hg, he⟩ := eq_ofBytes_iff.1 (rfl : Header.ofBytes b = _)
    exact ⟨hg, he, hs, hs', ht, ht', hf, hf', hm, hm', hc, hc'⟩
  · intro hd
    refine ⟨_, ⟨hd.strings_size, hd.strings⟩, _, ⟨hd.types_size, hd.types⟩, _,
      ⟨hd.fields_size, hd.fields⟩, _, ⟨hd.methods_size, hd.methods⟩, _,
      ⟨hd.classes_size, hd.classes⟩, ?_⟩
    rw [← eq_ofBytes_iff.2 ⟨hd.magic, hd.extent⟩]
    rfl

theorem lt_size_of_getElem? {α : Type} {xs : Array α} {i n : Nat} {x : α}
    (h : xs[i]? = some x) (hn : xs.size = n) : i < n :=
  hn ▸ (Array.getElem?_eq_some_iff.1 h).1

theorem eq_noIndex_or_lt_of_optionalEntry {pool : Array String} {i : UInt32} {s : Option String}
    {n : Nat} (h : OptionalEntry pool i s) (hn : pool.size = n) : i = noIndex ∨ i.toNat < n := by
  rcases h with ⟨hi, _⟩ | ⟨_, x, hx, _⟩
  · exact .inl hi
  · exact .inr (lt_size_of_getElem? hx hn)

theorem Describes.wellFormed {c : Container} {b : Bytes} (hd : c.Describes b) (h : Framed b) :
    WellFormed b where
  toFramed := h
  strings := by
    intro i hi
    obtain ⟨t, ht, _⟩ := hd.strings i (hd.strings_size ▸ hi)
    exact ⟨t, ht⟩
  types := by
    intro i hi
    exact lt_size_of_getElem? (hd.types i (hd.types_size ▸ hi)) hd.strings_size
  fields := by
    intro i hi
    have hf := hd.fields i (hd.fields_size ▸ hi)
    exact ⟨lt_size_of_getElem? hf.owner hd.types_size, lt_size_of_getElem? hf.type hd.types_size,
      lt_size_of_getElem? hf.name hd.strings_size⟩
  methods := by
    intro i hi
    have hm := hd.methods i (hd.methods_size ▸ hi)
    exact ⟨lt_size_of_getElem? hm.owner hd.types_size, lt_size_of_getElem? hm.name hd.strings_size⟩
  classes := by
    intro i hi
    have hc := hd.classes i (hd.classes_size ▸ hi)
    exact ⟨lt_size_of_getElem? hc.name hd.types_size,
      eq_noIndex_or_lt_of_optionalEntry hc.superclass hd.types_size,
      eq_noIndex_or_lt_of_optionalEntry hc.sourceFile hd.strings_size⟩

theorem exists_array {α : Type} {n : Nat} {P : Nat → α → Prop} (h : ∀ i < n, ∃ a, P i a) :
    ∃ xs : Array α, xs.size = n ∧ ∀ i, (hi : i < xs.size) → P i xs[i] := by
  choose f hf using h
  refine ⟨Array.ofFn fun i : Fin n => f i i.2, Array.size_ofFn, fun i hi => ?_⟩
  rw [Array.getElem_ofFn]
  exact hf i _

theorem exists_getElem? {pool : Array String} {i n : Nat} (hn : pool.size = n) (hi : i < n) :
    ∃ x, pool[i]? = some x :=
  ⟨pool[i], Array.getElem?_eq_getElem (hn ▸ hi)⟩

theorem exists_optionalEntry {pool : Array String} {i : UInt32} {n : Nat} (hn : pool.size = n)
    (hi : i = noIndex ∨ i.toNat < n) : ∃ s, OptionalEntry pool i s := by
  by_cases h0 : i = noIndex
  · exact ⟨none, .inl ⟨h0, rfl⟩⟩
  · obtain ⟨x, hx⟩ := exists_getElem? hn (hi.resolve_left h0)
    exact ⟨some x, .inr ⟨h0, x, hx, rfl⟩⟩

theorem exists_describes {b : Bytes} (h : WellFormed b) : ∃ c : Container, c.Describes b := by
  have texts : ∀ i < tableSize b .strings, ∃ s : String, ∃ t,
      Text.StoredAt b (word32At b (entryAt b .strings i)).toNat t ∧ s = t.value := by
    intro i hi
    obtain ⟨t, ht⟩ := h.strings i hi
    exact ⟨t.value, t, ht, rfl⟩
  obtain ⟨strings, hs, strings_at⟩ := exists_array texts
  obtain ⟨types, ht, types_at⟩ := exists_array fun i hi => exists_getElem? hs (h.types i hi)
  have fields : ∀ i < tableSize b .fields,
      ∃ f : FieldRef, f.StandsAt ⟨strings, types⟩ b (entryAt b .fields i) := by
    intro i hi
    obtain ⟨ho, hy, hn⟩ := h.fields i hi
    obtain ⟨owner, ho⟩ := exists_getElem? ht ho
    obtain ⟨type, hy⟩ := exists_getElem? ht hy
    obtain ⟨name, hn⟩ := exists_getElem? hs hn
    exact ⟨⟨owner, type, name⟩, ho, hy, hn⟩
  have methods : ∀ i < tableSize b .methods,
      ∃ m : MethodRef, m.StandsAt ⟨strings, types⟩ b (entryAt b .methods i) := by
    intro i hi
    obtain ⟨ho, hn⟩ := h.methods i hi
    obtain ⟨owner, ho⟩ := exists_getElem? ht ho
    obtain ⟨name, hn⟩ := exists_getElem? hs hn
    exact ⟨⟨owner, name, _⟩, ho, rfl, hn⟩
  have classes : ∀ i < tableSize b .classes,
      ∃ x : ClassDef, x.StandsAt ⟨strings, types⟩ b (entryAt b .classes i) := by
    intro i hi
    obtain ⟨hn, hu, hf⟩ := h.classes i hi
    obtain ⟨name, hn⟩ := exists_getElem? ht hn
    obtain ⟨superclass, hu⟩ := exists_optionalEntry ht hu
    obtain ⟨sourceFile, hf⟩ := exists_optionalEntry hs hf
    exact ⟨⟨name, ⟨_⟩, superclass, sourceFile, _⟩, hn, rfl, hu, hf, rfl⟩
  obtain ⟨fields, hf, fields_at⟩ := exists_array fields
  obtain ⟨methods, hm, methods_at⟩ := exists_array methods
  obtain ⟨classes, hc, classes_at⟩ := exists_array classes
  exact ⟨⟨Header.ofBytes b, ⟨⟨strings, types⟩, fields, methods⟩, classes⟩, Header.magic_ofBytes b,
    Header.extent_ofBytes b, hs, strings_at, ht, types_at, hf, fields_at, hm, methods_at, hc,
    classes_at⟩

theorem decode_eq_ok_iff {b : Bytes} {o : Options} {pool : WorkerPool} {c : Container} :
    (decode b o pool).outcome = .ok c ↔ WellFormed b ∧ c.Describes b := by
  constructor
  · intro h
    have hf := framed_of_decode h
    have hd := (decode_eq_ok_iff_of_framed hf).1 h
    exact ⟨hd.wellFormed hf, hd⟩
  · rintro ⟨hw, hd⟩
    exact (decode_eq_ok_iff_of_framed hw.toFramed).2 hd

/-- Decoding succeeds exactly on well-formed buffers, and gives the one container that the words
of the buffer describe. -/
theorem decodes_iff_wellFormed (b : Bytes) (o : Options) (pool : WorkerPool) :
    ((∃ c, (decode b o pool).outcome = .ok c) ↔ WellFormed b) ∧
      ∀ c, (decode b o pool).outcome = .ok c ↔ WellFormed b ∧ c.Describes b := by
  refine ⟨⟨?_, fun h => ?_⟩, fun c => decode_eq_ok_iff⟩
  · rintro ⟨c, hc⟩
    exact (decode_eq_ok_iff.1 hc).1
  · obtain ⟨c, hd⟩ := exists_describes h
    exact ⟨c, decode_eq_ok_iff.2 ⟨h, hd⟩⟩

end Container

end DexListing
