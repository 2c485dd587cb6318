import DexListing.Proofs.Layout.Described
import DexListing.Proofs.Text.Replacement

namespace DexListing.Text

def PayloadAt (b : Bytes) (p : Nat) (payload : List UInt8) : Prop :=
  ∃ k < 5, Varint.EndsAfter b p k ∧
    p + k + 1 + Varint.total b p k % 2 ^ 32 ≤ b.size ∧
    payload = (window b (p + k + 1) (Varint.total b p k % 2 ^ 32)).toList

theorem storedAt_iff {b : Bytes} {p : Nat} {t : Text} :
    StoredAt b p t ↔ ∃ payload, PayloadAt b p payload ∧ t = decode payload := by
  constructor
  · rintro ⟨k, hk, he, hle, rfl⟩
    exact ⟨_, ⟨k, hk, he, hle, rfl⟩, rfl⟩
  · rintro ⟨_, ⟨k, hk, he, hle, rfl⟩, rfl⟩
    exact ⟨k, hk, he, hle, rfl⟩

theorem wellFormed?_eq_some_iff_payload {bytes : List UInt8} {s : String} :
    wellFormed? bytes = some s ↔ ∃ e, bytes = (⟨s, e⟩ : Layout.StoredText).payload := by
  rw [wellFormed?_eq_some_iff]
  constructor
  · rintro (h | h)
    · exact ⟨.standard, h⟩
    · exact ⟨.modified, h⟩
  · rintro ⟨_ | _, h⟩
    · exact .inl h
    · exact .inr h

theorem wellFormed?_eq_none_iff {bytes : List UInt8} :
    wellFormed? bytes = none ↔ ∀ x : Layout.StoredText, bytes ≠ x.payload := by
  rw [Option.eq_none_iff_forall_ne_some]
  constructor
  · intro h x hx
    exact h x.value (wellFormed?_eq_some_iff_payload.2 ⟨x.encoding, hx⟩)
  · intro h s hs
    obtain ⟨e, he⟩ := wellFormed?_eq_some_iff_payload.1 hs
    exact h ⟨s, e⟩ he

theorem lossy_decode_iff {bytes : List UInt8} :
    (decode bytes).lossy = true ↔ wellFormed? bytes = none := by
  cases h : wellFormed? bytes with
  | none => simp [decode_of_wellFormed?_eq_none h]
  | some s => simp [decode_of_wellFormed? h]

theorem wellFormed?_of_not_lossy {bytes : List UInt8} (h : (decode bytes).lossy = false) :
    wellFormed? bytes = some (decode bytes).value := by
  cases hw : wellFormed? bytes with
  | none => simp [lossy_decode_iff.2 hw] at h
  | some s => rw [decode_of_wellFormed? hw]

theorem replacement_mem_of_lossy {bytes : List UInt8} (h : (decode bytes).lossy = true) :
    Lossy.replacement ∈ (decode bytes).value.toList := by
  have hn := lossy_decode_iff.1 h
  rw [decode_of_wellFormed?_eq_none hn, String.toList_ofList]
  by_contra hr
  have he := Lossy.flatMap_decode hr
  have hs : wellFormed? bytes = some (String.ofList (Lossy.decode bytes)) := by
    rw [wellFormed?_eq_some_iff, toList_toByteArray, String.toList_ofList]
    exact .inl he.symm
  rw [hn] at hs
  cases hs

theorem c0_not_mem_utf8EncodeChar (c : Char) : 0xC0 ∉ String.utf8EncodeChar c := by
  have hc : c.toNat < 0xD800 ∨ 0xDFFF < c.toNat ∧ c.toNat < 0x110000 := c.valid
  rw [String.utf8EncodeChar, Char.toNat_val]
  intro h
  split_ifs at h <;>
    simp only [List.mem_cons, List.not_mem_nil, or_false, Lossy.eq_ofNat_iff,
      UInt8.reduceToNat] at h <;> omega

theorem ne_payload_of_mixed {payload : List UInt8} (hc : 0xC0 ∈ payload) {x : UInt8}
    (hx : x ∈ payload) (hr : x = 0 ∨ 0xF0 ≤ x) (t : Layout.StoredText) : payload ≠ t.payload := by
  rintro rfl
  rw [Layout.StoredText.payload] at hc hx
  split at hc
  next =>
    rw [toList_toByteArray, List.mem_flatMap] at hc
    obtain ⟨c, _, hm⟩ := hc
    exact c0_not_mem_utf8EncodeChar c hm
  next he =>
    rw [he] at hx
    obtain ⟨h0, hlt⟩ := Modified.mem_flatMap_unitBytes hx
    rcases hr with hz | hle
    · exact h0 hz
    · exact absurd (UInt8.le_iff_toNat_le.1 hle) (Nat.not_le.2 hlt)

theorem ne_payload_of_lone {us : List UInt16} (h : ∀ s : List Char, us ≠ s.flatMap units)
    (t : Layout.StoredText) : us.flatMap Modified.unitBytes ≠ t.payload := by
  intro he
  rw [Layout.StoredText.payload] at he
  split at he
  next =>
    rw [toList_toByteArray] at he
    exact h _ (Modified.flatMap_units_eq he.symm).symm
  next => exact h _ (Modified.flatMap_unitBytes_injective he)

/-- Both encodings of a text are read back, whatever stands around them, and a text that is not
lossy was stored in one of them. The payloads that no text has, among them those that mix the
two forms of NUL or of a large char and those of a lone surrogate, show a replacement. -/
theorem read_recovers_text :
    (∀ (x : Layout.StoredText) b p, x.payload.length < 2 ^ 32 → Holds b p x.bytes →
        read b p = .ok ⟨x.value, false⟩) ∧
      (∀ b p t, read b p = .ok t → ∃ payload, PayloadAt b p payload ∧
        (t.lossy = false → ∃ e, payload = (⟨t.value, e⟩ : Layout.StoredText).payload) ∧
        (t.lossy = true ↔ ∀ x : Layout.StoredText, payload ≠ x.payload) ∧
        (t.lossy = true → '�' ∈ t.value.toList)) ∧
      (∀ payload : List UInt8, 0xC0 ∈ payload → (∃ x ∈ payload, x = 0 ∨ 0xF0 ≤ x) →
        ∀ x : Layout.StoredText, payload ≠ x.payload) ∧
      ∀ us, (∀ s : List Char, us ≠ s.flatMap units) →
        ∀ x : Layout.StoredText, us.flatMap Modified.unitBytes ≠ x.payload := by
  refine ⟨?_, ?_, ?_, ?_⟩
  · intro x b p hl h
    exact read_eq_ok_iff.2 (Layout.storedAt_of_holds h hl)
  · intro b p t h
    obtain ⟨payload, hp, rfl⟩ := storedAt_iff.1 (read_eq_ok_iff.1 h)
    refine ⟨payload, hp, ?_, ?_, replacement_mem_of_lossy⟩
    · intro hl
      exact wellFormed?_eq_some_iff_payload.1 (wellFormed?_of_not_lossy hl)
    · rw [lossy_decode_iff, wellFormed?_eq_none_iff]
  · rintro payload hc ⟨y, hy, hr⟩ x
    exact ne_payload_of_mixed hc hy hr x
  · intro us h x
    exact ne_payload_of_lone h x

theorem read_recovers_text_mixed :
    let x : Layout.StoredText := ⟨"né\x00😀", .modified⟩
    read ([0xFF] ++ x.bytes).toArray 1 = .ok ⟨"né\x00😀", false⟩ ∧
      (∃ t, read #[3, 0xC0, 0x80, 0x00] 0 = .ok t ∧ t.lossy = true ∧ '\uFFFD' ∈ t.value.toList) ∧
      (∀ x : Layout.StoredText, [0xC0, 0x80, 0x00] ≠ x.payload) ∧
      ∀ x : Layout.StoredText, [0xED, 0xA0, 0x80] ≠ x.payload := by
  intro x
  refine ⟨?_, ?_, ?_, ?_⟩
  · have hx : Holds ([0xFF] ++ x.bytes).toArray 1 x.bytes :=
      (Holds.append_iff.1 (Holds.toArray ([0xFF] ++ x.bytes))).2
    exact read_recovers_text.1 x _ 1 (by decide) hx
  · have hr : read #[3, 0xC0, 0x80, 0x00] 0 = .ok ⟨"\uFFFD\uFFFD\x00", true⟩ := by
      decide +kernel
    obtain ⟨_, _, _, _, hm⟩ := read_recovers_text.2.1 _ _ _ hr
    exact ⟨_, hr, rfl, hm rfl⟩
  · exact read_recovers_text.2.2.1 _ (by decide) ⟨0x00, by decide, .inl rfl⟩
  · refine read_recovers_text.2.2.2 [0xD800] fun s hs => ?_
    have hu := ofUnits_flatMap_units s
    rw [← hs] at hu
    cases hu

end DexListing.Text
