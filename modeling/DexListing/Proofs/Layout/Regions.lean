import DexListing.Layout
import DexListing.Proofs.Bytes.Holds
import DexListing.Proofs.Container.Frame

namespace DexListing.Layout

theorem length_headerBytes (c : Contents) : (headerBytes c).length = headerSize := rfl

theorem length_fieldIds (f : FieldIds) : f.bytes.length = 8 := rfl

theorem length_methodIds (m : MethodIds) : m.bytes.length = 8 := rfl

theorem length_classIds (x : ClassIds × Nat) : (x.1.bytes x.2).length = 32 := rfl

theorem length_unitBytes (u : CodeUnit) : (unitBytes u).length = 2 := rfl

theorem map_fst_placeTexts (p : Nat) (ts : List StoredText) :
    (placeTexts p ts).map Prod.fst = ts := by
  induction ts generalizing p with
  | nil => rfl
  | cons t ts ih => rw [placeTexts, List.map_cons, ih]

theorem map_fst_placeCode (p : Nat) (xs : List ClassIds) :
    (placeCode p xs).map Prod.fst = xs := by
  induction xs generalizing p with
  | nil => rfl
  | cons x xs ih =>
      rw [placeCode]
      split <;> rw [List.map_cons, ih]

namespace Contents

theorem map_fst_placedTexts (c : Contents) : c.placedTexts.map Prod.fst = c.strings :=
  map_fst_placeTexts ..

theorem map_fst_placedClasses (c : Contents) : c.placedClasses.map Prod.fst = c.classes :=
  map_fst_placeCode ..

theorem length_placedTexts (c : Contents) : c.placedTexts.length = c.strings.length := by
  rw [← c.map_fst_placedTexts, List.length_map]

theorem length_placedClasses (c : Contents) : c.placedClasses.length = c.classes.length := by
  rw [← c.map_fst_placedClasses, List.length_map]

end Contents

theorem Contents.codeAt_pos (c : Contents) : 0 < c.codeAt := by
  simp only [codeAt, dataAt, classesAt, methodsAt, fieldsAt, typesAt, headerSize]
  omega

theorem le_codeStart (p : Nat) : p ≤ codeStart p := by
  rw [codeStart]
  omega

variable {b : Bytes}

theorem holds_of_mem_placeTexts {p : Nat} {ts : List StoredText} {x : StoredText × Nat}
    (h : Holds b p (ts.flatMap StoredText.bytes)) (hx : x ∈ placeTexts p ts) :
    Holds b x.2 x.1.bytes := by
  induction ts generalizing p with
  | nil => cases hx
  | cons t ts ih =>
      rw [List.flatMap_cons, Holds.append_iff] at h
      rw [placeTexts, List.mem_cons] at hx
      rcases hx with rfl | hx
      · exact h.1
      · exact ih h.2 hx

structure CodeStands (b : Bytes) (p : Nat) (x : ClassIds × Nat) (item : CodeItem) : Prop where
  le : p ≤ x.2
  aligned : 4 ∣ x.2
  holds : Holds b x.2 item.bytes

theorem codeStands_of_mem_placeCode {p : Nat} {xs : List ClassIds} {x : ClassIds × Nat}
    {item : CodeItem} (h : Holds b p (codeArea p xs)) (hx : x ∈ placeCode p xs)
    (hi : x.1.code = some item) : CodeStands b p x item := by
  induction xs generalizing p with
  | nil => cases hx
  | cons y ys ih =>
      rw [placeCode] at hx
      rw [codeArea] at h
      split at hx
      next hy =>
        rw [hy] at h
        rw [List.mem_cons] at hx
        rcases hx with rfl | hx
        · rw [hy] at hi
          cases hi
        · exact ih h hx
      next found hy =>
        have hp := le_codeStart p
        have hs : p + (codeStart p - p) = codeStart p := by omega
        rw [hy] at h
        simp only [Holds.append_iff, List.length_append, length_zeros, ← Nat.add_assoc, hs] at h
        obtain ⟨⟨_, hitem⟩, hrest⟩ := h
        rw [List.mem_cons] at hx
        rcases hx with rfl | hx
        · rw [hy, Option.some.injEq] at hi
          exact ⟨hp, Nat.dvd_mul_left .., hi ▸ hitem⟩
        · have hr := ih hrest hx
          exact ⟨by have := hr.le; omega, hr.aligned, hr.holds⟩

theorem eq_zero_of_mem_placeCode {p : Nat} {xs : List ClassIds} {x : ClassIds × Nat}
    (hx : x ∈ placeCode p xs) (hi : x.1.code = none) : x.2 = 0 := by
  induction xs generalizing p with
  | nil => cases hx
  | cons y ys ih =>
      rw [placeCode] at hx
      split at hx
      next hy =>
        rw [List.mem_cons] at hx
        rcases hx with rfl | hx
        · rfl
        · exact ih hx
      next found hy =>
        rw [List.mem_cons] at hx
        rcases hx with rfl | hx
        · rw [hy] at hi
          cases hi
        · exact ih hx

structure Regions (c : Contents) (b : Bytes) : Prop where
  magic : Holds b 0 magic.toList
  extent : ∀ t, Holds b t.headerPosition (extentBytes (c.extent t))
  strings : Holds b headerSize (c.placedTexts.flatMap fun x => bytes32 (UInt32.ofNat x.2))
  types : Holds b c.typesAt (c.types.flatMap bytes32)
  fields : Holds b c.fieldsAt (c.fields.flatMap FieldIds.bytes)
  methods : Holds b c.methodsAt (c.methods.flatMap MethodIds.bytes)
  classes : Holds b c.classesAt (c.placedClasses.flatMap fun x => x.1.bytes x.2)
  texts : Holds b c.dataAt c.stringData
  code : Holds b c.codeAt (codeArea c.codeAt c.classes)

theorem holds_header {c : Contents} (h : Holds b 0 (headerBytes c)) :
    Holds b 0 magic.toList ∧ ∀ t, Holds b t.headerPosition (extentBytes (c.extent t)) := by
  simp only [headerBytes, Holds.append_iff] at h
  obtain ⟨⟨⟨⟨⟨⟨⟨⟨hg, _⟩, hs⟩, ht⟩, _⟩, hf⟩, hm⟩, hc⟩, _⟩ := h
  refine ⟨hg, fun t => ?_⟩
  cases t with
  | strings => exact hs
  | types => exact ht
  | fields => exact hf
  | methods => exact hm
  | classes => exact hc

theorem regions_encode (c : Contents) : Regions c (encode c).toArray := by
  have h := Holds.toArray (encode c)
  have hb := length_flatMap length_bytes32 c.types
  have hs := length_flatMap (fun x : StoredText × Nat => length_bytes32 (UInt32.ofNat x.2))
    c.placedTexts
  have hf := length_flatMap length_fieldIds c.fields
  have hm := length_flatMap length_methodIds c.methods
  have hc := length_flatMap length_classIds c.placedClasses
  rw [c.length_placedTexts] at hs
  rw [c.length_placedClasses] at hc
  generalize (encode c).toArray = b at h
  simp only [encode, Holds.append_iff, List.length_append, length_headerBytes, hb, hs, hf, hm, hc,
    Nat.zero_add] at h
  obtain ⟨⟨⟨⟨⟨⟨⟨header, strings⟩, types⟩, fields⟩, methods⟩, classes⟩, texts⟩, code⟩ := h
  obtain ⟨magic, extent⟩ := holds_header header
  exact ⟨magic, extent, strings, types, fields, methods, classes, texts, code⟩

namespace Regions

variable {c : Contents}

theorem extentAt_eq (h : Regions c b) (t : Table) : extentAt b t = c.extent t := by
  have hx := h.extent t
  rw [extentBytes, Holds.append_iff, length_bytes32] at hx
  rw [extentAt, word32At_bytes32 hx.1, word32At_bytes32 hx.2]

theorem table_le (h : Regions c b) (t : Table) : c.tableAt t + t.width * c.count t ≤ b.size := by
  cases t with
  | strings =>
      have hl := length_flatMap (fun x : StoredText × Nat => length_bytes32 (UInt32.ofNat x.2))
        c.placedTexts
      rw [c.length_placedTexts] at hl
      exact hl ▸ h.strings.le
  | types => exact length_flatMap length_bytes32 c.types ▸ h.types.le
  | fields => exact length_flatMap length_fieldIds c.fields ▸ h.fields.le
  | methods => exact length_flatMap length_methodIds c.methods ▸ h.methods.le
  | classes =>
      have hl := length_flatMap length_classIds c.placedClasses
      rw [c.length_placedClasses] at hl
      exact hl ▸ h.classes.le

theorem count_lt (h : Regions c b) (hb : b.size < 2 ^ 32) (t : Table) : c.count t < 2 ^ 32 := by
  have hle := h.table_le t
  have hw : c.count t ≤ t.width * c.count t :=
    Nat.le_mul_of_pos_left _ (by cases t <;> decide)
  omega

theorem tableSize_eq (h : Regions c b) (hb : b.size < 2 ^ 32) (t : Table) :
    tableSize b t = c.count t := by
  rw [tableSize, h.extentAt_eq, Contents.extent, UInt32.toNat_ofNat',
    Nat.mod_eq_of_lt (h.count_lt hb t)]

theorem entryAt_eq (h : Regions c b) (hb : b.size < 2 ^ 32) {t : Table} {i : Nat}
    (hi : i < c.count t) : entryAt b t i = c.tableAt t + t.width * i := by
  have hle := h.table_le t
  rw [entryAt, h.extentAt_eq, Contents.extent, if_neg (by omega), UInt32.toNat_ofNat',
    Nat.mod_eq_of_lt (by omega)]

theorem framed (h : Regions c b) (hb : b.size < 2 ^ 32) : Framed b where
  magic := by
    have hm : Holds b 0 [0x64, 0x65, 0x78, 0x0A, 0x30, 0x33, 0x35, 0x00] := h.magic
    simp only [Holds.cons_iff] at hm
    obtain ⟨⟨p0, h0⟩, ⟨p1, h1⟩, ⟨p2, h2⟩, ⟨p3, h3⟩, _⟩ := hm
    rw [StartsWithMagic, getElem?_eq_byteAt p0, getElem?_eq_byteAt p1, getElem?_eq_byteAt p2,
      getElem?_eq_byteAt p3, h0, h1, h2, h3]
    exact ⟨rfl, rfl, rfl, rfl⟩
  header := Nat.le_trans (Nat.le_add_right ..) h.strings.le
  inside := by
    intro t
    have hle := h.table_le t
    have hs := h.tableSize_eq hb t
    rw [tableSize] at hs
    by_cases h0 : c.count t = 0
    · exact .inl (hs.trans h0)
    · have he := h.entryAt_eq hb (Nat.pos_of_ne_zero h0)
      rw [entryAt, Nat.mul_zero, Nat.add_zero, Nat.add_zero] at he
      refine .inr ?_
      rw [hs, he, Nat.mul_comm]
      exact hle

end Regions

end DexListing.Layout
