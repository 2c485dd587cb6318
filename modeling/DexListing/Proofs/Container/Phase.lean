import DexListing.Container
import DexListing.Proofs.Container.Frame
import DexListing.Proofs.StringTable.Pool
import DexListing.Proofs.Text.Stored

namespace DexListing

namespace StringTable

def textAt (b : Bytes) (i : Nat) : Except Error Text :=
  entry b (word32At b (entryAt b .strings i))

def offsetsAt (b : Bytes) (x : Extent) : List UInt32 :=
  List.ofFn fun i : Fin x.size.toNat => word32At b (x.offset.toNat + 4 * i)

theorem length_offsetsAt (b : Bytes) (x : Extent) : (offsetsAt b x).length = x.size.toNat :=
  List.length_ofFn

theorem getElem?_offsetsAt {b : Bytes} {x : Extent} {i : Nat} (h : i < x.size.toNat) :
    (offsetsAt b x)[i]? = some (word32At b (x.offset.toNat + 4 * i)) := by
  simp [offsetsAt, h]

theorem mem_offsetsAt {b : Bytes} {x : Extent} {off : UInt32} :
    off ∈ offsetsAt b x ↔ ∃ i < x.size.toNat, word32At b (x.offset.toNat + 4 * i) = off := by
  rw [offsetsAt, List.mem_ofFn]
  constructor
  · rintro ⟨i, rfl⟩
    exact ⟨i, i.isLt, rfl⟩
  · rintro ⟨i, hi, rfl⟩
    exact ⟨⟨i, hi⟩, rfl⟩

theorem offsets_of_inside {b : Bytes} {x : Extent} (h : x.Inside .strings b) :
    offsets b x = .ok (offsetsAt b x).toArray := by
  rw [offsets, collect_eq_ok_iff]
  refine ⟨by simp [length_offsetsAt], fun i hi => ?_⟩
  have hi : i < x.size.toNat := by simpa [length_offsetsAt] using hi
  have fits : x.offset.toNat + 4 * i + 4 ≤ b.size := h.entry_le hi
  rw [Reader.word32_of_le fits]
  simp [offsetsAt]

theorem extend_values {b : Bytes} {found : Entries} {offs : List UInt32} {i : Nat}
    {f : Nat → Except Error Text} (h : ∀ j, (hj : j < offs.length) → f (i + j) = entry b offs[j]) :
    (extend b found offs).map Entries.values =
      collectFrom (fun j => (f j).map Text.value) i offs.length found.values := by
  induction offs generalizing i found with
  | nil => rfl
  | cons off offs ih =>
      have h0 : f i = entry b off := h 0 (by simp)
      have hs : ∀ j, (hj : j < offs.length) → f (i + 1 + j) = entry b offs[j] := by
        intro j hj
        have := h (j + 1) (by simpa using hj)
        rw [show i + 1 + j = i + (j + 1) by omega, this]
        rfl
      rw [extend, List.length_cons, collectFrom, h0]
      cases entry b off with
      | error e => rfl
      | ok t => exact ih hs

theorem entries_offsetsAt (b : Bytes) (x : Extent) :
    (entries b (offsetsAt b x)).map Entries.values =
      collect x.size.toNat fun i =>
        (entry b (word32At b (x.offset.toNat + 4 * i))).map Text.value := by
  rw [entries, extend_values (i := 0) (f := fun i => entry b (word32At b (x.offset.toNat + 4 * i)))]
  · rw [length_offsetsAt]
    rfl
  · intro j hj
    simp [offsetsAt]

def summary (decoded : Entries) (workers : Nat) : List Record :=
  (if 0 < decoded.lossy then [.lossyStrings decoded.lossy decoded.values.size] else []) ++
    [.stringsDecoded decoded.values.size (max workers 1)]

theorem decode_of_offsets {b : Bytes} {x : Extent} {found : Array UInt32}
    (h : offsets b x = .ok found) (workers : Nat) (pool : WorkerPool) :
    decode b x workers pool =
      match (pool.split workers found.toList).entries b with
      | .ok decoded =>
          ⟨.ok decoded.values, pool.refusals workers found.size ++ summary decoded workers⟩
      | .error e => ⟨.error e, pool.refusals workers found.size⟩ := by
  have full : (Array.replicate found.size "").size = found.toList.length := by simp
  rw [decode, h, Run.lift_ok_bind, fillWith_eq full]
  cases (pool.split workers found.toList).entries b with
  | error e => rfl
  | ok decoded =>
      by_cases lossy : 0 < decoded.lossy
      · simp [summary, bind, Run.andThen, lossy, Run.tell, pure, Run.ok]
      · simp [summary, bind, Run.andThen, lossy, Run.tell, pure, Run.ok]

theorem decode_of_offsets_error {b : Bytes} {x : Extent} {e : Error}
    (h : offsets b x = .error e) (workers : Nat) (pool : WorkerPool) :
    decode b x workers pool = ⟨.error e, []⟩ := by
  rw [decode, h, Run.lift_error_bind]

theorem outcome_decode_of_inside {b : Bytes} {x : Extent} (h : x.Inside .strings b)
    (workers : Nat) (pool : WorkerPool) :
    (decode b x workers pool).outcome =
      ((pool.split workers (offsetsAt b x)).entries b).map Entries.values := by
  rw [decode_of_offsets (offsets_of_inside h)]
  cases (pool.split workers (offsetsAt b x)).entries b <;> rfl

section Framed

variable {b : Bytes} {workers : Nat} {pool : WorkerPool} {strings : Array String} {e : Error}

theorem outcome_decode_of_prefersLeft {x : Extent} (h : x.Inside .strings b)
    (prefers : (pool.split workers (offsetsAt b x)).PrefersLeft b) :
    (decode b x workers pool).outcome =
      collect x.size.toNat fun i =>
        (entry b (word32At b (x.offset.toNat + 4 * i))).map Text.value := by
  rw [outcome_decode_of_inside h, WorkerPool.entries_split_of_prefersLeft prefers,
    entries_offsetsAt]

theorem outcome_decode_eq_ok_iff (h : Framed b) :
    (decode b (extentAt b .strings) workers pool).outcome = .ok strings ↔
      collect (tableSize b .strings) (fun i => (textAt b i).map Text.value) = .ok strings := by
  have sequential : (entries b (offsetsAt b (extentAt b .strings))).map Entries.values =
      collect (tableSize b .strings) (fun i => (textAt b i).map Text.value) :=
    entries_offsetsAt b _
  rw [outcome_decode_of_inside (h.inside .strings), ← sequential]
  simp only [map_eq_ok_iff, WorkerPool.entries_split_eq_ok_iff]

theorem exists_textAt_of_decode_error (h : Framed b)
    (failed : (decode b (extentAt b .strings) workers pool).outcome = .error e) :
    ∃ i < tableSize b .strings, textAt b i = .error e := by
  rw [outcome_decode_of_inside (h.inside .strings), map_eq_error_iff] at failed
  obtain ⟨off, member, fails⟩ := WorkerPool.exists_fails_of_split failed
  obtain ⟨i, hi, rfl⟩ := mem_offsetsAt.1 member
  exact ⟨i, hi, fails⟩

end Framed

end StringTable

theorem TypeTable.decode_of_framed {b : Bytes} (h : Framed b) (strings : Array String) :
    TypeTable.decode b (extentAt b .types) strings =
      collect (tableSize b .types) fun i =>
        within (.entry .types i) (resolve .strings strings (word32At b (entryAt b .types i))) := by
  refine collect_congr fun i hi => ?_
  have hr : (Reader.word32 b (entryAt b .types i)).result =
      .ok (word32At b (entryAt b .types i)) := Reader.word32_of_le (h.entry_le hi)
  change (Reader.word32 b (entryAt b .types i)).result >>= _ = _
  rw [hr]
  rfl

theorem Extent.records_of_framed {α : Type} {b : Bytes} (h : Framed b) (t : Table)
    (parse : Vector UInt8 t.width → Except Error α) :
    (extentAt b t).records t (Reader.record t.width parse) b =
      collect (tableSize b t) fun i =>
        within (.entry t i) (parse (window b (entryAt b t i) t.width)) := by
  refine collect_congr fun i hi => ?_
  change within _ (Reader.record t.width parse b (entryAt b t i)).result = _
  rw [Reader.record_of_le parse (h.entry_le hi)]

theorem Container.outcome_decode (b : Bytes) (o : Options) (pool : WorkerPool) :
    (decode b o pool).outcome = do
      let header ← Header.read b
      let strings ← (StringTable.decode b header.strings o.effectiveWorkers pool).outcome
      let types ← TypeTable.decode b header.types strings
      let pools : Pools := ⟨strings, types⟩
      let fields ← header.fields.records .fields (FieldRef.reader pools) b
      let methods ← header.methods.records .methods (MethodRef.reader pools) b
      let classes ← header.classes.records .classes (ClassDef.reader pools) b
      return ⟨header, ⟨pools, fields, methods⟩, classes⟩ := by
  simp only [decode, Run.outcome_bind, Run.outcome_lift, Run.outcome_tell, Run.outcome_pure]
  rfl

/-- In a framed buffer no read of a table entry fails: what is left of the decoding is a chain of
five collections of entries. -/
theorem Container.outcome_decode_of_framed {b : Bytes} (h : Framed b) (o : Options)
    (pool : WorkerPool) :
    (decode b o pool).outcome = do
      let strings ←
        (StringTable.decode b (extentAt b .strings) o.effectiveWorkers pool).outcome
      let types ← collect (tableSize b .types) fun i =>
        within (.entry .types i) (resolve .strings strings (word32At b (entryAt b .types i)))
      let pools : Pools := ⟨strings, types⟩
      let fields ← collect (tableSize b .fields) fun i =>
        within (.entry .fields i) (FieldRef.parse pools (window b (entryAt b .fields i) 8))
      let methods ← collect (tableSize b .methods) fun i =>
        within (.entry .methods i) (MethodRef.parse pools (window b (entryAt b .methods i) 8))
      let classes ← collect (tableSize b .classes) fun i =>
        within (.entry .classes i) (ClassDef.parse pools (window b (entryAt b .classes i) 32))
      return ⟨Header.ofBytes b, ⟨pools, fields, methods⟩, classes⟩ := by
  have hx (t : Table) : (Header.ofBytes b).extent t = extentAt b t := Header.extent_ofBytes b t
  have hs : (Header.ofBytes b).strings = extentAt b .strings := hx .strings
  have ht : (Header.ofBytes b).types = extentAt b .types := hx .types
  have hf : (Header.ofBytes b).fields = extentAt b .fields := hx .fields
  have hm : (Header.ofBytes b).methods = extentAt b .methods := hx .methods
  have hc : (Header.ofBytes b).classes = extentAt b .classes := hx .classes
  have rf (pools : Pools) := Extent.records_of_framed h .fields (FieldRef.parse pools)
  have rm (pools : Pools) := Extent.records_of_framed h .methods (MethodRef.parse pools)
  have rc (pools : Pools) := Extent.records_of_framed h .classes (ClassDef.parse pools)
  simp only [Table.width] at rf rm rc
  rw [outcome_decode, Header.read_of_framed h]
  simp only [bind, Except.bind, hs, ht, hf, hm, hc, FieldRef.reader, MethodRef.reader,
    ClassDef.reader, TypeTable.decode_of_framed h, rf, rm, rc]

end DexListing
