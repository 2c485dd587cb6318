import DexListing.Proofs.Container.Decoding
import DexListing.Proofs.Layout.Meaning
import DexListing.Proofs.Layout.Regions
import DexListing.Proofs.Text.Codec

namespace DexListing.Layout

variable {b : Bytes} {p : Nat}

theorem decode_payload (t : StoredText) : Text.decode t.payload = ⟨t.value, false⟩ := by
  rw [StoredText.payload]
  cases t.encoding with
  | standard => exact Text.decode_toByteArray t.value
  | modified => exact Text.decode_modified t.value

theorem storedAt_of_holds {t : StoredText} (h : Holds b p t.bytes)
    (ht : t.payload.length < 2 ^ 32) : Text.StoredAt b p ⟨t.value, false⟩ := by
  rw [StoredText.bytes, Holds.append_iff] at h
  obtain ⟨hv, hp⟩ := h
  obtain ⟨k, hk, hl, he, hs⟩ := Varint.endsAfter_of_holds_encode hv
  have hle := hp.le
  have hm : Varint.total b p k % 2 ^ 32 = t.payload.length := by
    rw [hs, UInt32.toNat_ofNat', Nat.mod_mod, Nat.mod_eq_of_lt ht]
  rw [hl, ← Nat.add_assoc] at hp hle
  refine ⟨k, hk, he, by rw [hm]; exact hle, ?_⟩
  rw [hm, hp.window_toList, decode_payload]

namespace Contents

variable {c : Contents}

theorem getElem?_strings {i : UInt32} (h : i.toNat < c.strings.length) :
    c.tables.strings[i.toNat]? = some (c.string i) := by
  simp [tables, string, h]

theorem getElem?_types {i : UInt32} (h : i.toNat < c.types.length) :
    c.tables.types[i.toNat]? = some (c.type i) := by
  simp [tables, type, h]

end Contents

theorem fst_getElem {α β : Type} {l : List (α × β)} {xs : List α} (h : l.map Prod.fst = xs)
    {i : Nat} (hi : i < xs.length) : ∃ hl : i < l.length, l[i].1 = xs[i] := by
  subst h
  exact ⟨by simpa using hi, by simp⟩

theorem optionalEntry_getD {pool : Array String} {f : UInt32 → String} {n : Nat} {o : Option UInt32}
    (hp : ∀ i : UInt32, i.toNat < n → pool[i.toNat]? = some (f i)) (hn : n < 2 ^ 32)
    (ho : ∀ i ∈ o, i.toNat < n) : OptionalEntry pool (o.getD noIndex) (o.map f) := by
  cases o with
  | none => exact .inl ⟨rfl, rfl⟩
  | some i =>
      have hi := ho i rfl
      have hx : i ≠ noIndex := by
        rintro rfl
        change 4294967295 < n at hi
        omega
      exact .inr ⟨hx, f i, hp i hi, rfl⟩

namespace Regions

variable {c : Contents}

theorem textStands (h : Regions c b) (hb : b.size < 2 ^ 32) {i : Nat} (hi : i < c.strings.length) :
    Text.StoredAt b (word32At b (entryAt b .strings i)).toNat ⟨c.strings[i].value, false⟩ := by
  have he : entryAt b .strings i = headerSize + 4 * i := h.entryAt_eq hb hi
  obtain ⟨hp, hf⟩ := fst_getElem c.map_fst_placedTexts hi
  have hw := h.strings.flatMap (fun x => length_bytes32 _) i hp
  have hx := holds_of_mem_placeTexts h.texts (List.getElem_mem hp)
  have hle := hx.le
  rw [he, word32At_bytes32 hw, UInt32.toNat_ofNat', Nat.mod_eq_of_lt (by omega), ← hf]
  have hl : c.placedTexts[i].1.payload.length ≤ c.placedTexts[i].1.bytes.length := by
    simp [StoredText.bytes]
  exact storedAt_of_holds hx (by omega)

theorem typeStands (h : Regions c b) (hv : c.Valid) (hb : b.size < 2 ^ 32) {i : Nat}
    (hi : i < c.types.length) :
    c.tables.strings[(word32At b (entryAt b .types i)).toNat]? = some (c.string c.types[i]) := by
  have he : entryAt b .types i = c.typesAt + 4 * i := h.entryAt_eq hb hi
  have hw := h.types.flatMap length_bytes32 i hi
  rw [he, word32At_bytes32 hw]
  exact Contents.getElem?_strings (hv.types _ (List.getElem_mem hi))

theorem fieldStands (h : Regions c b) (hv : c.Valid) (hb : b.size < 2 ^ 32) {i : Nat}
    (hi : i < c.fields.length) :
    (c.field c.fields[i]).StandsAt c.tables.toPools b (entryAt b .fields i) := by
  have he : entryAt b .fields i = c.fieldsAt + 8 * i := h.entryAt_eq hb hi
  have hw := h.fields.flatMap length_fieldIds i hi
  obtain ⟨ho, ht, hn⟩ := hv.fields _ (List.getElem_mem hi)
  simp only [FieldIds.bytes, Holds.append_iff, List.length_append, length_bytes16] at hw
  obtain ⟨⟨h0, h2⟩, h4⟩ := hw
  rw [he]
  constructor
  · rw [word16At_bytes16 h0]
    exact Contents.getElem?_types (i := c.fields[i].owner.toUInt32) (by simpa using ho)
  · rw [word16At_bytes16 h2]
    exact Contents.getElem?_types (i := c.fields[i].type.toUInt32) (by simpa using ht)
  · rw [word32At_bytes32 h4]
    exact Contents.getElem?_strings hn

theorem methodStands (h : Regions c b) (hv : c.Valid) (hb : b.size < 2 ^ 32) {i : Nat}
    (hi : i < c.methods.length) :
    (c.method c.methods[i]).StandsAt c.tables.toPools b (entryAt b .methods i) := by
  have he : entryAt b .methods i = c.methodsAt + 8 * i := h.entryAt_eq hb hi
  have hw := h.methods.flatMap length_methodIds i hi
  obtain ⟨ho, hn⟩ := hv.methods _ (List.getElem_mem hi)
  simp only [MethodIds.bytes, Holds.append_iff, List.length_append, length_bytes16] at hw
  obtain ⟨⟨h0, h2⟩, h4⟩ := hw
  rw [he]
  constructor
  · rw [word16At_bytes16 h0]
    exact Contents.getElem?_types (i := c.methods[i].owner.toUInt32) (by simpa using ho)
  · rw [word16At_bytes16 h2]
    rfl
  · rw [word32At_bytes32 h4]
    exact Contents.getElem?_strings hn

theorem classStands (h : Regions c b) (hv : c.Valid) (hb : b.size < 2 ^ 32) {i : Nat}
    (hi : i < c.placedClasses.length) :
    (c.classDef c.placedClasses[i]).StandsAt c.tables.toPools b (entryAt b .classes i) := by
  have hc : i < c.classes.length := c.length_placedClasses ▸ hi
  have he : entryAt b .classes i = c.classesAt + 32 * i := h.entryAt_eq hb hc
  have hw := h.classes.flatMap length_classIds i hi
  have hm : c.placedClasses[i].1 ∈ c.classes := by
    rw [← c.map_fst_placedClasses]
    exact List.mem_map_of_mem (List.getElem_mem hi)
  obtain ⟨hn, hu, hf⟩ := hv.classes _ hm
  simp only [ClassIds.bytes, Holds.append_iff, List.length_append, length_bytes32, length_zeros]
    at hw
  obtain ⟨⟨⟨⟨⟨⟨⟨h0, h4⟩, h8⟩, _⟩, h16⟩, _⟩, h24⟩, _⟩ := hw
  rw [he]
  constructor
  · rw [word32At_bytes32 h0]
    exact Contents.getElem?_types hn
  · rw [word32At_bytes32 h4]
    rfl
  · rw [word32At_bytes32 h8]
    exact optionalEntry_getD (fun i hi => Contents.getElem?_types hi) (h.count_lt hb .types) hu
  · rw [word32At_bytes32 h16]
    exact optionalEntry_getD (fun i hi => Contents.getElem?_strings hi) (h.count_lt hb .strings) hf
  · rw [word32At_bytes32 h24]
    rfl

theorem describes (h : Regions c b) (hv : c.Valid) (hb : b.size < 2 ^ 32) :
    c.container.Describes b where
  magic := by
    have hm : (window b 0 8).toList = Layout.magic.toList := h.magic.window_toList
    exact (Vector.toList_inj.1 hm).symm
  extent := by
    intro t
    rw [h.extentAt_eq]
    cases t <;> rfl
  strings_size := by simp [h.tableSize_eq hb, Contents.count]
  strings := by
    intro i hi
    exact ⟨_, h.textStands hb (by simpa using hi), by simp⟩
  types_size := by simp [h.tableSize_eq hb, Contents.count]
  types := by
    intro i hi
    simpa using h.typeStands hv hb (by simpa using hi)
  fields_size := by simp [h.tableSize_eq hb, Contents.count]
  fields := by
    intro i hi
    simpa using h.fieldStands hv hb (by simpa using hi)
  methods_size := by simp [h.tableSize_eq hb, Contents.count]
  methods := by
    intro i hi
    simpa using h.methodStands hv hb (by simpa using hi)
  classes_size := by simp [h.tableSize_eq hb, Contents.count, c.length_placedClasses]
  classes := by
    intro i hi
    simpa using h.classStands hv hb (by simpa using hi)

end Regions

end DexListing.Layout
