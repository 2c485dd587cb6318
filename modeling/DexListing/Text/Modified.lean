import DexListing.Text.Utf16

namespace DexListing.Text.Modified

def unitBytes (u : UInt16) : List UInt8 :=
  if u = 0 then [0xC0, 0x80]
  else if u < 0x80 then [u.toUInt8]
  else if u < 0x800 then
    [UInt8.ofNat (0xC0 + u.toNat / 64), UInt8.ofNat (0x80 + u.toNat % 64)]
  else
    [UInt8.ofNat (0xE0 + u.toNat / 4096), UInt8.ofNat (0x80 + u.toNat / 64 % 64),
      UInt8.ofNat (0x80 + u.toNat % 64)]

def encode (s : List Char) : List UInt8 :=
  (s.flatMap units).flatMap unitBytes

def unit1 (x : UInt8) : UInt16 :=
  x.toUInt16

def unit2 (x y : UInt8) : UInt16 :=
  UInt16.ofNat (x.toNat % 32 * 64 + y.toNat % 64)

def unit3 (x y z : UInt8) : UInt16 :=
  UInt16.ofNat (x.toNat % 16 * 4096 + y.toNat % 64 * 64 + z.toNat % 64)

def decodeUnits : List UInt8 → Option (List UInt16)
  | [] => some []
  | x :: rest =>
    if unitBytes (unit1 x) = [x] then (decodeUnits rest).map (unit1 x :: ·)
    else match rest with
      | [] => none
      | y :: rest =>
        if unitBytes (unit2 x y) = [x, y] then (decodeUnits rest).map (unit2 x y :: ·)
        else match rest with
          | [] => none
          | z :: rest =>
            if unitBytes (unit3 x y z) = [x, y, z] then
              (decodeUnits rest).map (unit3 x y z :: ·)
            else none

def decode (bytes : List UInt8) : Option (List Char) :=
  (decodeUnits bytes).bind ofUnits

theorem flatMap_unitBytes_of_decodeUnits {bytes : List UInt8} {us : List UInt16}
    (h : decodeUnits bytes = some us) : us.flatMap unitBytes = bytes := by
  fun_induction decodeUnits bytes generalizing us with
  | case1 => simp_all
  | case2 x rest hx ih =>
      obtain ⟨vs, hv, rfl⟩ := Option.map_eq_some_iff.1 h
      simp [hx, ih hv]
  | case3 => simp at h
  | case4 x hx y rest hy ih =>
      obtain ⟨vs, hv, rfl⟩ := Option.map_eq_some_iff.1 h
      simp [hy, ih hv]
  | case5 => simp at h
  | case6 x hx y hy z rest hz ih =>
      obtain ⟨vs, hv, rfl⟩ := Option.map_eq_some_iff.1 h
      simp [hz, ih hv]
  | case7 => simp at h

theorem unitBytes_one {u : UInt16} (h : u ≠ 0) (h' : u.toNat < 0x80) :
    unitBytes u = [u.toUInt8] := by
  rw [unitBytes, if_neg h, if_pos (by simpa [UInt16.lt_iff_toNat_lt] using h')]

theorem unitBytes_two {u : UInt16} (h : u = 0 ∨ 0x80 ≤ u.toNat ∧ u.toNat < 0x800) :
    unitBytes u =
      [UInt8.ofNat (0xC0 + u.toNat / 64), UInt8.ofNat (0x80 + u.toNat % 64)] := by
  rcases h with rfl | ⟨h, h'⟩
  · rfl
  · have h0 : u ≠ 0 := by rintro rfl; simp at h
    rw [unitBytes, if_neg h0, if_neg (by simpa [UInt16.lt_iff_toNat_lt] using h),
      if_pos (by simpa [UInt16.lt_iff_toNat_lt] using h')]

theorem unitBytes_three {u : UInt16} (h : 0x800 ≤ u.toNat) :
    unitBytes u =
      [UInt8.ofNat (0xE0 + u.toNat / 4096), UInt8.ofNat (0x80 + u.toNat / 64 % 64),
        UInt8.ofNat (0x80 + u.toNat % 64)] := by
  have h0 : u ≠ 0 := by rintro rfl; simp at h
  rw [unitBytes, if_neg h0, if_neg (by simp [UInt16.le_iff_toNat_le]; omega),
    if_neg (by simpa [UInt16.lt_iff_toNat_lt] using h)]

theorem unitBytes_cases (u : UInt16) :
    u ≠ 0 ∧ u.toNat < 0x80 ∨ (u = 0 ∨ 0x80 ≤ u.toNat ∧ u.toNat < 0x800) ∨ 0x800 ≤ u.toNat := by
  by_cases h : u = 0
  · exact .inr (.inl (.inl h))
  · have : u.toNat < 0x80 ∨ 0x80 ≤ u.toNat ∧ u.toNat < 0x800 ∨ 0x800 ≤ u.toNat := by omega
    rcases this with h' | h' | h'
    · exact .inl ⟨h, h'⟩
    · exact .inr (.inl (.inr h'))
    · exact .inr (.inr h')

theorem lt_of_unitBytes_unit1 {x : UInt8} (h : unitBytes (unit1 x) = [x]) : x.toNat < 0x80 := by
  have hx : (unit1 x).toNat = x.toNat := by simp [unit1]
  rcases unitBytes_cases (unit1 x) with h' | h' | h'
  · omega
  · simp [unitBytes_two h'] at h
  · simp [unitBytes_three h'] at h

theorem lt_of_unitBytes_unit2 {x y : UInt8} (h : unitBytes (unit2 x y) = [x, y]) :
    x.toNat < 0xE0 := by
  have hu : (unit2 x y).toNat = x.toNat % 32 * 64 + y.toNat % 64 := by
    rw [unit2, UInt16.toNat_ofNat', Nat.mod_eq_of_lt (by omega)]
  rcases unitBytes_cases (unit2 x y) with h' | h' | h'
  · simp [unitBytes_one h'.1 h'.2] at h
  · rw [unitBytes_two h'] at h
    have := congrArg UInt8.toNat (List.cons.inj h).1
    rw [UInt8.toNat_ofNat'] at this
    omega
  · omega

theorem unit1_toUInt8 {u : UInt16} (h : u.toNat < 0x80) : unit1 u.toUInt8 = u := by
  apply UInt16.toNat_inj.1
  rw [unit1, UInt8.toNat_toUInt16, UInt16.toNat_toUInt8]
  omega

theorem unit2_ofNat {u : UInt16} (h : u.toNat < 0x800) :
    unit2 (UInt8.ofNat (0xC0 + u.toNat / 64)) (UInt8.ofNat (0x80 + u.toNat % 64)) = u := by
  apply UInt16.toNat_inj.1
  rw [unit2, UInt16.toNat_ofNat', UInt8.toNat_ofNat', UInt8.toNat_ofNat']
  omega

theorem unit3_ofNat (u : UInt16) :
    unit3 (UInt8.ofNat (0xE0 + u.toNat / 4096)) (UInt8.ofNat (0x80 + u.toNat / 64 % 64))
      (UInt8.ofNat (0x80 + u.toNat % 64)) = u := by
  have hu := u.toNat_lt
  apply UInt16.toNat_inj.1
  rw [unit3, UInt16.toNat_ofNat', UInt8.toNat_ofNat', UInt8.toNat_ofNat', UInt8.toNat_ofNat']
  omega

theorem decodeUnits_unitBytes_append (u : UInt16) (bytes : List UInt8) :
    decodeUnits (unitBytes u ++ bytes) = (decodeUnits bytes).map (u :: ·) := by
  have hu := u.toNat_lt
  rcases unitBytes_cases u with h | h | h
  · rw [unitBytes_one h.1 h.2, List.singleton_append, decodeUnits.eq_def]
    simp only [unit1_toUInt8 h.2, unitBytes_one h.1 h.2, if_true]
  · have hl : u.toNat < 0x800 := by rcases h with rfl | h <;> simp_all
    have h1 : unitBytes (unit1 (UInt8.ofNat (0xC0 + u.toNat / 64))) ≠
        [UInt8.ofNat (0xC0 + u.toNat / 64)] := by
      intro e
      have := lt_of_unitBytes_unit1 e
      rw [UInt8.toNat_ofNat'] at this
      omega
    rw [unitBytes_two h, List.cons_append, List.singleton_append, decodeUnits.eq_def]
    simp only [if_neg h1, unit2_ofNat hl, unitBytes_two h, if_true]
  · have h1 : unitBytes (unit1 (UInt8.ofNat (0xE0 + u.toNat / 4096))) ≠
        [UInt8.ofNat (0xE0 + u.toNat / 4096)] := by
      intro e
      have := lt_of_unitBytes_unit1 e
      rw [UInt8.toNat_ofNat'] at this
      omega
    have h2 : unitBytes (unit2 (UInt8.ofNat (0xE0 + u.toNat / 4096))
        (UInt8.ofNat (0x80 + u.toNat / 64 % 64))) ≠
        [UInt8.ofNat (0xE0 + u.toNat / 4096), UInt8.ofNat (0x80 + u.toNat / 64 % 64)] := by
      intro e
      have := lt_of_unitBytes_unit2 e
      rw [UInt8.toNat_ofNat'] at this
      omega
    rw [unitBytes_three h, List.cons_append, List.cons_append, List.singleton_append,
      decodeUnits.eq_def]
    simp only [if_neg h1, if_neg h2, unit3_ofNat, unitBytes_three h, if_true]

theorem decodeUnits_flatMap_unitBytes (us : List UInt16) :
    decodeUnits (us.flatMap unitBytes) = some us := by
  induction us with
  | nil => rfl
  | cons u us ih => rw [List.flatMap_cons, decodeUnits_unitBytes_append, ih, Option.map_some]

theorem decode_encode (s : List Char) : decode (encode s) = some s := by
  rw [decode, encode, decodeUnits_flatMap_unitBytes, Option.bind_some, ofUnits_flatMap_units]

theorem encode_of_decode {bytes : List UInt8} {s : List Char} (h : decode bytes = some s) :
    encode s = bytes := by
  obtain ⟨us, hu, hs⟩ := Option.bind_eq_some_iff.1 h
  rw [encode, flatMap_units_of_ofUnits hs, flatMap_unitBytes_of_decodeUnits hu]

end DexListing.Text.Modified
