import DexListing.Text

namespace DexListing.Text

theorem toList_toByteArray (s : String) :
    s.toByteArray.data.toList = s.toList.flatMap String.utf8EncodeChar := by
  rw [← String.utf8Encode_toList, List.utf8Encode, List.toList_data_toByteArray]

theorem toByteArray_eq_iff {bytes : List UInt8} {s : String} :
    s.toByteArray = bytes.toByteArray ↔ s.toByteArray.data.toList = bytes := by
  constructor
  · intro h
    rw [h, List.toList_data_toByteArray]
  · rintro rfl
    apply ByteArray.ext
    rw [List.data_toByteArray]

theorem fromUTF8?_eq_some_iff {bytes : List UInt8} {s : String} :
    String.fromUTF8? bytes.toByteArray = some s ↔ s.toByteArray.data.toList = bytes := by
  rw [← toByteArray_eq_iff]
  rw [String.fromUTF8?]
  split
  next hv => rw [Option.some.injEq, ← String.toByteArray_inj, eq_comm]; rfl
  next hv =>
    simp only [reduceCtorEq, false_iff]
    intro h
    exact hv (h ▸ s.isValidUTF8)

namespace Modified

theorem mem_unitBytes {u : UInt16} {x : UInt8} (h : x ∈ unitBytes u) : x ≠ 0 ∧ x.toNat < 0xF0 := by
  have hu := u.toNat_lt
  rw [ne_eq, ← UInt8.toNat_inj]
  rcases unitBytes_cases u with hc | hc | hc
  · have h0 : u.toNat ≠ 0 := fun h => hc.1 (UInt16.toNat_inj.1 h)
    rw [unitBytes_one hc.1 hc.2, List.mem_singleton] at h
    rw [h, UInt16.toNat_toUInt8, UInt8.toNat_zero]
    omega
  · rw [unitBytes_two hc, List.mem_cons, List.mem_singleton] at h
    have hl : u.toNat < 0x800 := by rcases hc with rfl | hc <;> simp_all
    rcases h with rfl | rfl <;> rw [UInt8.toNat_ofNat', UInt8.toNat_zero] <;> omega
  · rw [unitBytes_three hc] at h
    simp only [List.mem_cons, List.not_mem_nil, or_false] at h
    rcases h with rfl | rfl | rfl <;> rw [UInt8.toNat_ofNat', UInt8.toNat_zero] <;> omega

theorem mem_flatMap_unitBytes {us : List UInt16} {x : UInt8} (h : x ∈ us.flatMap unitBytes) :
    x ≠ 0 ∧ x.toNat < 0xF0 := by
  obtain ⟨u, _, hx⟩ := List.mem_flatMap.1 h
  exact mem_unitBytes hx

def Shared (c : Char) : Prop :=
  c.toNat ≠ 0 ∧ c.toNat < 0x10000

theorem utf8EncodeChar_of_shared {c : Char} (h : Shared c) :
    String.utf8EncodeChar c = (units c).flatMap unitBytes := by
  obtain ⟨h0, h1⟩ := h
  have hu : (UInt16.ofNat c.toNat).toNat = c.toNat := by
    rw [UInt16.toNat_ofNat', Nat.mod_eq_of_lt (by omega)]
  have hn : UInt16.ofNat c.toNat ≠ 0 := fun h => h0 (by rw [← hu, h]; rfl)
  rw [units, if_pos h1, List.flatMap_singleton, String.utf8EncodeChar, Char.toNat_val]
  split
  next h =>
    have hb : (UInt16.ofNat c.toNat).toUInt8 = UInt8.ofNat c.toNat := by
      rw [← UInt8.toNat_inj, UInt16.toNat_toUInt8, hu, UInt8.toNat_ofNat']
    rw [unitBytes_one hn (by omega), hb]
  next h =>
    split
    next h' =>
      rw [unitBytes_two (by omega), hu, show c.toNat / 64 % 0x20 + 0xC0 = 0xC0 + c.toNat / 64 by omega,
        Nat.add_comm (c.toNat % 0x40)]
    next h' =>
      rw [if_pos (by omega), unitBytes_three (by omega), hu,
        show c.toNat / 4096 % 0x10 + 0xE0 = 0xE0 + c.toNat / 4096 by omega,
        Nat.add_comm (c.toNat / 64 % 0x40), Nat.add_comm (c.toNat % 0x40)]

theorem exists_mem_utf8EncodeChar {c : Char} (h : ¬ Shared c) :
    ∃ x ∈ String.utf8EncodeChar c, x = 0 ∨ 0xF0 ≤ x.toNat := by
  have hc : c.toNat < 0xD800 ∨ 0xDFFF < c.toNat ∧ c.toNat < 0x110000 := c.valid
  rw [String.utf8EncodeChar, Char.toNat_val]
  by_cases h0 : c.toNat = 0
  · rw [h0]
    exact ⟨0, by simp, .inl rfl⟩
  · have h1 : 0x10000 ≤ c.toNat := Nat.not_lt.1 fun h1 => h ⟨h0, h1⟩
    rw [if_neg (by omega), if_neg (by omega), if_neg (by omega)]
    refine ⟨_, List.mem_cons_self, .inr ?_⟩
    rw [UInt8.toNat_ofNat']
    omega

theorem flatMap_unitBytes_injective {us vs : List UInt16}
    (h : us.flatMap unitBytes = vs.flatMap unitBytes) : us = vs := by
  have hd := congrArg decodeUnits h
  rwa [decodeUnits_flatMap_unitBytes, decodeUnits_flatMap_unitBytes, Option.some.injEq] at hd

theorem flatMap_units_eq {cs : List Char} {us : List UInt16}
    (h : cs.flatMap String.utf8EncodeChar = us.flatMap unitBytes) : cs.flatMap units = us := by
  have shared : ∀ c ∈ cs, Shared c := by
    intro c hc
    by_cases hs : Shared c
    · exact hs
    · obtain ⟨x, hx, hbad⟩ := exists_mem_utf8EncodeChar hs
      obtain ⟨h0, hlt⟩ := mem_flatMap_unitBytes (h ▸ List.mem_flatMap.2 ⟨c, hc, hx⟩)
      rcases hbad with hz | hle
      · exact absurd hz h0
      · omega
  apply flatMap_unitBytes_injective
  rw [← h, List.flatMap_assoc, List.flatMap_def, List.flatMap_def]
  exact congrArg List.flatten (List.map_congr_left fun c hc =>
    (utf8EncodeChar_of_shared (shared c hc)).symm)

theorem eq_of_flatMap_utf8EncodeChar {cs s : List Char}
    (h : cs.flatMap String.utf8EncodeChar = encode s) : cs = s := by
  have hu := congrArg ofUnits (flatMap_units_eq h)
  rwa [ofUnits_flatMap_units, ofUnits_flatMap_units, Option.some.injEq] at hu

end Modified

theorem wellFormed?_eq_some_iff {bytes : List UInt8} {s : String} :
    wellFormed? bytes = some s ↔
      bytes = s.toByteArray.data.toList ∨ bytes = Modified.encode s.toList := by
  rw [wellFormed?]
  split
  next t ht =>
    rw [fromUTF8?_eq_some_iff] at ht
    rw [Option.some.injEq]
    constructor
    · rintro rfl
      exact .inl ht.symm
    · rintro (h | h)
      · exact String.toByteArray_inj.1 (ByteArray.ext (Array.toList_inj.1 (ht.trans h)))
      · rw [h, toList_toByteArray] at ht
        exact String.toList_inj.1 (Modified.eq_of_flatMap_utf8EncodeChar ht)
  next hn =>
    rw [Option.map_eq_some_iff]
    constructor
    · rintro ⟨cs, hc, rfl⟩
      exact .inr (by rw [String.toList_ofList, Modified.encode_of_decode hc])
    · rintro (h | h)
      · rw [fromUTF8?_eq_some_iff.2 h.symm] at hn
        cases hn
      · exact ⟨s.toList, h ▸ Modified.decode_encode s.toList, String.ofList_toList⟩

theorem decode_of_wellFormed? {bytes : List UInt8} {s : String} (h : wellFormed? bytes = some s) :
    decode bytes = ⟨s, false⟩ := by
  rw [decode, h]

theorem decode_of_wellFormed?_eq_none {bytes : List UInt8} (h : wellFormed? bytes = none) :
    decode bytes = ⟨String.ofList (Lossy.decode bytes), true⟩ := by
  rw [decode, h]
  rw [wellFormed?] at h
  split at h
  next => cases h
  -- so the first case of `replaced` is never reached
  next hn => rw [replaced, hn]

theorem decode_toByteArray (s : String) : decode s.toByteArray.data.toList = ⟨s, false⟩ :=
  decode_of_wellFormed? (wellFormed?_eq_some_iff.2 (.inl rfl))

theorem decode_modified (s : String) : decode (Modified.encode s.toList) = ⟨s, false⟩ :=
  decode_of_wellFormed? (wellFormed?_eq_some_iff.2 (.inr rfl))

end DexListing.Text
