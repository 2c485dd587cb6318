import DexListing.Proofs.Footprint.Agreement
import DexListing.Proofs.Layout.RoundTrip

namespace DexListing

def MethodRef.shown (m : MethodRef) : String × String :=
  (m.owner, m.name)

structure Tables.Alike (t t' : Tables) : Prop where
  strings : t'.strings = t.strings
  types : t'.types = t.types
  fields : t'.fields = t.fields
  methods : t'.methods.map MethodRef.shown = t.methods.map MethodRef.shown

theorem lookup_congr {α β : Type} {pool pool' : Array α} {view : α → β}
    (h : pool'.map view = pool.map view) (t : Table) (i : UInt8) (placeholder : β) :
    lookup t pool' i view placeholder = lookup t pool i view placeholder := by
  have hs : pool'.size = pool.size := by simpa using congrArg Array.size h
  have hi : pool'[i.toNat]?.map view = pool[i.toNat]?.map view := by
    rw [← Array.getElem?_map, h, Array.getElem?_map]
  rw [lookup, lookup, hs]
  cases hx : pool[i.toNat]? <;> cases hx' : pool'[i.toNat]? <;> simp_all

theorem Slot.fill_congr {t t' : Tables} (h : t.Alike t') (slot : Slot) (kind : OperandKind)
    (u : CodeUnit) :
    slot.fill u (t'.operandSource kind u) = slot.fill u (t.operandSource kind u) := by
  obtain ⟨hs, ht, hf, hm⟩ := h
  have found : (OperandSource.methods t'.methods).method u.aa =
      (OperandSource.methods t.methods).method u.aa :=
    congrArg Except.ok (lookup_congr hm .methods u.aa
      (Table.types.placeholder u.aa, Table.methods.placeholder u.aa))
  cases kind with
  | none => rfl
  | rawValue => rfl
  | strings => rw [Tables.operandSource, hs]; rfl
  | types => rw [Tables.operandSource, ht]; rfl
  | fields => rw [Tables.operandSource, hf]; rfl
  | methods =>
      cases slot with
      | method => exact congrArg (Except.map _) found
      | ownedMethod => exact congrArg (Except.map _) found
      | _ => rfl

theorem Dalvik.line_congr {t t' : Tables} (h : t.Alike t') (p : PlacedUnit) :
    line t' p = line t p := by
  have hc : Code.line instructionSet t' p = Code.line instructionSet t p := by
    rw [Code.line, Code.line, Code.text, Code.text]
    cases instructionSet.get? p.unit.opcode with
    | none => rfl
    | some x =>
        simp only [Instruction.line, Instruction.render, Template.render, Slot.fill_congr h]
  rw [line_eq_ok, line_eq_ok] at hc
  exact Except.ok.inj hc

def MethodRef.onto (m : MethodRef) (b : Bytes) (p : Nat) : MethodRef :=
  { m with proto := word16At b (p + 2) }

def ClassDef.onto (x : ClassDef) (b : Bytes) (p : Nat) : ClassDef :=
  { x with access := ⟨word32At b (p + 4)⟩ }

section Records

variable {b b' : Bytes} {pools : Pools} {p : Nat}

theorem FieldRef.StandsAt.agree {f : FieldRef} (hf : f.StandsAt pools b p)
    (h : (⟨p, p + 8⟩ : Span).Agree b b') : f.StandsAt pools b' p where
  owner := by
    rw [h.word16At (by omega) (by omega)]
    exact hf.owner
  type := by
    rw [h.word16At (by omega) (by omega)]
    exact hf.type
  name := by
    rw [h.word32At (by omega) (by omega)]
    exact hf.name

theorem MethodRef.StandsAt.agree {m : MethodRef} (hm : m.StandsAt pools b p)
    (h : ∀ s ∈ Footprint.method p, s.Agree b b') :
    (m.onto b' p).StandsAt pools b' p where
  owner := by
    have hs : (⟨p, p + 2⟩ : Span).Agree b b' := h _ (by simp [Footprint.method])
    rw [hs.word16At (Nat.le_refl _) (Nat.le_refl _)]
    exact hm.owner
  proto := rfl
  name := by
    have hs : (⟨p + 4, p + 8⟩ : Span).Agree b b' := h _ (by simp [Footprint.method])
    rw [hs.word32At (Nat.le_refl _) (Nat.le_refl _)]
    exact hm.name

theorem ClassDef.StandsAt.agree {x : ClassDef} (hx : x.StandsAt pools b p)
    (h : ∀ s ∈ Footprint.classDef p, s.Agree b b') :
    (x.onto b' p).StandsAt pools b' p := by
  have word (k : Nat) (hk : (⟨p + k, p + k + 4⟩ : Span) ∈ Footprint.classDef p) :
      word32At b' (p + k) = word32At b (p + k) :=
    (h _ hk).word32At (Nat.le_refl _) (Nat.le_refl _)
  have w0 := word 0 (by simp [Footprint.classDef])
  have w8 := word 8 (by simp [Footprint.classDef])
  have w16 := word 16 (by simp [Footprint.classDef])
  have w24 := word 24 (by simp [Footprint.classDef])
  constructor
  · rw [← Nat.add_zero p, w0]
    exact hx.name
  · rfl
  · rw [w8]
    exact hx.superclass
  · rw [w16]
    exact hx.sourceFile
  · rw [w24]
    exact hx.dataOffset

end Records

namespace Container

variable {b b' : Bytes} {c : Container}

/-- The container with the parts that its listing does not show taken from another buffer. -/
def onto (c : Container) (b' : Bytes) : Container where
  header := Header.ofBytes b'
  tables := { c.tables with
    methods := c.tables.methods.mapIdx fun i m => m.onto b' (entryAt b' .methods i) }
  classes := c.classes.mapIdx fun i x => x.onto b' (entryAt b' .classes i)

theorem alike_onto (c : Container) (b' : Bytes) : c.tables.Alike (c.onto b').tables where
  strings := rfl
  types := rfl
  fields := rfl
  methods := by
    apply Array.ext
    · simp [onto]
    · intro i hi _
      simp [onto, MethodRef.shown, MethodRef.onto]

theorem version_onto (h : Agreement b b') (hd : c.Describes b) :
    (c.onto b').header.version = c.header.version := by
  have hm : (c.onto b').header.magic = window b' 0 8 := Header.magic_ofBytes b'
  have same (i : Nat) (hi : i < 7) : (c.onto b').header.magic[i] = c.header.magic[i] := by
    simp only [hm, hd.magic]
    rw [getElem_window (by omega), getElem_window (by omega)]
    exact h.head.byteAt (by omega) (by omega)
  rw [Header.version, Header.version, same 4 (by decide), same 5 (by decide), same 6 (by decide)]

theorem describes_onto (h : Agreement b b') (hd : c.Describes b) : (c.onto b').Describes b' where
  magic := Header.magic_ofBytes b'
  extent := Header.extent_ofBytes b'
  strings_size := hd.strings_size.trans (h.tableSize_eq _).symm
  strings := by
    intro i hi
    obtain ⟨t, ht, he⟩ := hd.strings i hi
    exact ⟨t, h.storedAt (hd.strings_size ▸ hi) ht, he⟩
  types_size := hd.types_size.trans (h.tableSize_eq _).symm
  types := by
    intro i hi
    have hs := h.table (t := .types) (by simp [footprint]) (hd.types_size ▸ hi)
    rw [h.entryAt_eq, hs.word32At (Nat.le_refl _) (Nat.le_refl _)]
    exact hd.types i hi
  fields_size := hd.fields_size.trans (h.tableSize_eq _).symm
  fields := by
    intro i hi
    have hs := h.table (t := .fields) (by simp [footprint]) (hd.fields_size ▸ hi)
    rw [h.entryAt_eq]
    exact (hd.fields i hi).agree hs
  methods_size := by
    simpa [onto] using hd.methods_size.trans (h.tableSize_eq _).symm
  methods := by
    intro i hi
    have hi : i < c.tables.methods.size := by simpa [onto] using hi
    have hm := (hd.methods i hi).agree (h.methods (hd.methods_size ▸ hi))
    rw [← h.entryAt_eq] at hm
    simpa [onto] using hm
  classes_size := by
    simpa [onto] using hd.classes_size.trans (h.tableSize_eq _).symm
  classes := by
    intro i hi
    have hi : i < c.classes.size := by simpa [onto] using hi
    have hx := (hd.classes i hi).agree (h.classes (hd.classes_size ▸ hi))
    rw [← h.entryAt_eq] at hx
    simpa [onto] using hx

theorem outcome_classListing_onto (h : Agreement b b') (hd : c.Describes b) {i : Nat}
    (hi : i < c.classes.size) {y : ClassListing}
    (hy : (c.classListing b c.classes[i]).outcome = .ok y) :
    ((c.onto b').classListing b' (c.classes[i].onto b' (entryAt b' .classes i))).outcome =
      .ok y := by
  obtain ⟨found, hf, rfl⟩ := outcome_classListing_eq_ok_iff.1 hy
  have hu := h.units (hd.classes_size ▸ hi)
  rw [← (hd.classes i hi).dataOffset, hf] at hu
  have hl : Dalvik.line (c.onto b').tables = Dalvik.line c.tables :=
    funext fun p => Dalvik.line_congr (c.alike_onto b') p
  exact outcome_classListing_eq_ok_iff.2 ⟨found, hu, by rw [hl]; rfl⟩

end Container

theorem outcome_disassemble_of_agreement {b b' : Bytes} {o o' : Options} {pool pool' : WorkerPool}
    {d : Listing} (h : Agreement b b') (hd : (disassemble b o pool).outcome = .ok d) :
    (disassemble b' o' pool').outcome = .ok d := by
  obtain ⟨c, hc, hv, hl⟩ := outcome_disassemble_eq_ok_iff.1 hd
  have hf := Container.framed_of_decode hc
  have describes := (Container.decode_eq_ok_iff_of_framed hf).1 hc
  have hc' : (Container.decode b' o' pool').outcome = .ok (c.onto b') :=
    (Container.decode_eq_ok_iff_of_framed (h.framed hf)).2 (Container.describes_onto h describes)
  refine outcome_disassemble_eq_ok_iff.2 ⟨c.onto b', hc', ?_, ?_⟩
  · rw [hv, Container.version_onto h describes]
  · obtain ⟨hlen, hget⟩ := List.forall₂_iff_get.1 hl
    refine List.forall₂_iff_get.2 ⟨by simpa [Container.onto] using hlen, fun i hi hi' => ?_⟩
    have hi : i < c.classes.size := by simpa [Container.onto] using hi
    have hy := Container.outcome_classListing_onto h describes hi (hget i hi hi')
    simpa [Container.onto] using hy

/-- The bytes outside of the footprint of a buffer have no part in its listing. -/
theorem listing_from_footprint {b : Bytes} {o : Options} {pool : WorkerPool} {d : Listing}
    (hd : (disassemble b o pool).outcome = .ok d) :
    (∀ b' o' pool', Agreement b b' → (disassemble b' o' pool').outcome = .ok d) ∧
      ∀ p x o' pool', (∀ s ∈ footprint b, ¬ s.Covers p) →
        (disassemble (b.setIfInBounds p x) o' pool').outcome = .ok d := by
  constructor
  · intro b' o' pool' h
    exact outcome_disassemble_of_agreement h hd
  · intro p x o' pool' h
    exact outcome_disassemble_of_agreement (agreement_setIfInBounds h x) hd

theorem listing_from_footprint_scrambled :
    let b := (Layout.encode Layout.sample).toArray
    (disassemble (scrambled b 0xFF) {} (.cutAt 1)).outcome = .ok Layout.sample.listing ∧
      b[8]? = some 0x00 ∧
      (disassemble (b.setIfInBounds 8 0xFF) {} (.cutAt 2)).outcome =
        .ok Layout.sample.listing := by
  intro b
  have hd : (disassemble b {} (.cutAt 0)).outcome = .ok Layout.sample.listing :=
    Layout.outcome_disassemble_sample {} _
  have hp : ∀ s ∈ footprint b, ¬ s.Covers 8 := by decide +kernel
  refine ⟨?_, by decide +kernel, ?_⟩
  · exact (listing_from_footprint hd).1 _ {} _ (agreement_scrambled b 0xFF)
  · exact (listing_from_footprint hd).2 8 0xFF {} _ hp

end DexListing
