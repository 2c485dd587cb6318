namespace DexListing.Text

def units (c : Char) : List UInt16 :=
  if c.toNat < 0x10000 then [UInt16.ofNat c.toNat]
  else
    [UInt16.ofNat (0xD800 + (c.toNat - 0x10000) / 1024),
      UInt16.ofNat (0xDC00 + (c.toNat - 0x10000) % 1024)]

def single (u : UInt16) : Char :=
  Char.ofNat u.toNat

def pair (u v : UInt16) : Char :=
  Char.ofNat (0x10000 + u.toNat % 1024 * 1024 + v.toNat % 1024)

/-- A unit is read only in the form that `units` gives, so a lone surrogate is no character. -/
def ofUnits : List UInt16 → Option (List Char)
  | [] => some []
  | u :: rest =>
    if units (single u) = [u] then (ofUnits rest).map (single u :: ·)
    else match rest with
      | [] => none
      | v :: rest =>
        if units (pair u v) = [u, v] then (ofUnits rest).map (pair u v :: ·) else none

theorem flatMap_units_of_ofUnits {us : List UInt16} {cs : List Char}
    (h : ofUnits us = some cs) : cs.flatMap units = us := by
  fun_induction ofUnits us generalizing cs with
  | case1 => simp_all
  | case2 u rest hu ih =>
      obtain ⟨ds, hd, rfl⟩ := Option.map_eq_some_iff.1 h
      simp [hu, ih hd]
  | case3 => simp at h
  | case4 u hu v rest hv ih =>
      obtain ⟨ds, hd, rfl⟩ := Option.map_eq_some_iff.1 h
      simp [hv, ih hd]
  | case5 => simp at h

theorem single_ofNat {c : Char} (h : c.toNat < 0x10000) :
    single (UInt16.ofNat c.toNat) = c := by
  rw [single, UInt16.toNat_ofNat', Nat.mod_eq_of_lt (by omega), Char.ofNat_toNat]

theorem units_single_ne {u : UInt16} (h : 0xD800 ≤ u.toNat) (h' : u.toNat < 0xE000) :
    units (single u) ≠ [u] := by
  have hs : single u = '\x00' := by
    rw [single, Char.ofNat, dif_neg]
    · rfl
    · simp only [Nat.isValidChar]; omega
  rw [hs, units, if_pos (by decide)]
  intro e
  have := congrArg UInt16.toNat (List.cons.inj e).1
  simp at this
  omega

theorem pair_ofNat {c : Char} (h : 0x10000 ≤ c.toNat) :
    pair (UInt16.ofNat (0xD800 + (c.toNat - 0x10000) / 1024))
      (UInt16.ofNat (0xDC00 + (c.toNat - 0x10000) % 1024)) = c := by
  have hc : c.toNat < 0xD800 ∨ 0xDFFF < c.toNat ∧ c.toNat < 0x110000 := c.valid
  rw [pair, UInt16.toNat_ofNat', UInt16.toNat_ofNat',
    show 0x10000 + (0xD800 + (c.toNat - 0x10000) / 1024) % 2 ^ 16 % 1024 * 1024 +
      (0xDC00 + (c.toNat - 0x10000) % 1024) % 2 ^ 16 % 1024 = c.toNat by omega,
    Char.ofNat_toNat]

theorem ofUnits_units_append (c : Char) (us : List UInt16) :
    ofUnits (units c ++ us) = (ofUnits us).map (c :: ·) := by
  have hc : c.toNat < 0xD800 ∨ 0xDFFF < c.toNat ∧ c.toNat < 0x110000 := c.valid
  by_cases h : c.toNat < 0x10000
  · have hu : units c = [UInt16.ofNat c.toNat] := if_pos h
    rw [hu, List.singleton_append, ofUnits.eq_def]
    simp only [single_ofNat h, hu, if_true]
  · have hu : units c = [UInt16.ofNat (0xD800 + (c.toNat - 0x10000) / 1024),
        UInt16.ofNat (0xDC00 + (c.toNat - 0x10000) % 1024)] := if_neg h
    have hs : units (single (UInt16.ofNat (0xD800 + (c.toNat - 0x10000) / 1024))) ≠
        [UInt16.ofNat (0xD800 + (c.toNat - 0x10000) / 1024)] := by
      apply units_single_ne <;> rw [UInt16.toNat_ofNat'] <;> omega
    rw [hu, List.cons_append, List.singleton_append, ofUnits.eq_def]
    simp only [if_neg hs, pair_ofNat (Nat.not_lt.1 h), hu, if_true]

theorem ofUnits_flatMap_units (cs : List Char) : ofUnits (cs.flatMap units) = some cs := by
  induction cs with
  | nil => rfl
  | cons c cs ih => rw [List.flatMap_cons, ofUnits_units_append, ih, Option.map_some]

end DexListing.Text
