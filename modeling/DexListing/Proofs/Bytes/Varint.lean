import DexListing.Proofs.Bytes.Word
import DexListing.Proofs.Outcome
import Mathlib.Algebra.BigOperators.Ring.Finset
import Mathlib.Data.Nat.Bitwise
import Mathlib.Tactic.Ring

namespace DexListing.Varint

def encodeNat (n : Nat) : List UInt8 :=
  if n < 128 then [UInt8.ofNat n]
  else UInt8.ofNat (n % 128 + 128) :: encodeNat (n / 128)
termination_by n
decreasing_by omega

theorem toUInt8_low (v : UInt32) : (v &&& 0x7F).toUInt8 = UInt8.ofNat (v.toNat % 128) := by
  have low : (v &&& 0x7F).toNat = v.toNat % 128 := by
    rw [UInt32.toNat_and]
    exact Nat.and_two_pow_sub_one_eq_mod v.toNat 7
  apply UInt8.toNat_inj.1
  rw [UInt32.toNat_toUInt8, low, UInt8.toNat_ofNat']

theorem ofNat_or_high {n : Nat} (h : n < 128) :
    UInt8.ofNat n ||| 0x80 = UInt8.ofNat (n + 128) := by
  have hn : (UInt8.ofNat n).toNat = n := by
    rw [UInt8.toNat_ofNat']
    omega
  have sum := Nat.two_pow_add_eq_or_of_lt (i := 7) h 1
  apply UInt8.toNat_inj.1
  rw [UInt8.toNat_or, hn, UInt8.toNat_ofNat', Nat.or_comm]
  change 2 ^ 7 * 1 ||| n = _
  omega

theorem encodeFrom_eq {v : UInt32} (hv : v ≠ 0) : encodeFrom v = encodeNat v.toNat := by
  induction v using encodeFrom.induct with
  | case1 => exact absurd rfl hv
  | case2 v h rest ih =>
      have hr : rest.toNat = v.toNat / 128 := toNat_shiftRight_seven v
      have rest_eq_zero : rest = 0 ↔ v.toNat < 128 := by
        rw [← UInt32.toNat_inj, hr]
        exact Nat.div_eq_zero_iff_lt (by decide)
      rw [encodeFrom, encodeNat, if_neg h]
      change (if rest = 0 then _ else _) :: encodeFrom rest = _
      by_cases h0 : rest = 0
      · have hn := rest_eq_zero.1 h0
        rw [if_pos h0, if_pos hn, h0, encodeFrom, toUInt8_low, Nat.mod_eq_of_lt hn]
        rfl
      · have hn := mt rest_eq_zero.2 h0
        rw [if_neg h0, if_neg hn, ih h0, hr, toUInt8_low, ofNat_or_high (Nat.mod_lt _ (by decide))]

theorem encode_eq_encodeNat (v : UInt32) : encode v = encodeNat v.toNat := by
  rw [encode]
  split
  next h =>
    rw [h, encodeNat]
    rfl
  next h => exact encodeFrom_eq h

def groups (b : Bytes) (start : Nat) : Nat → Nat → Except Error (Nat × Nat)
  | 0, _ => fail (.overlongVarint start)
  | k + 1, p =>
    match b[p]? with
    | none => fail (.unfinishedVarint p)
    | some x =>
      if x < 128 then .ok (x.toNat, p + 1)
      else match groups b start k (p + 1) with
        | .ok (v, next) => .ok (x.toNat % 128 + 128 * v, next)
        | .error e => .error e

theorem toNat_low (x : UInt8) : (x &&& 0x7F).toNat = x.toNat % 128 := by
  rw [UInt8.toNat_and]
  exact Nat.and_two_pow_sub_one_eq_mod x.toNat 7

theorem high_eq_zero_iff (x : UInt8) : x &&& 0x80 = 0 ↔ x < 128 := by
  have hx := x.toNat_lt
  have high : (x &&& 0x80).toNat = (x.toNat.testBit 7).toNat * 128 := by
    rw [UInt8.toNat_and]
    exact Nat.and_two_pow x.toNat 7
  have bit : x.toNat.testBit 7 = decide (128 ≤ x.toNat) := by
    rw [Nat.testBit_eq_decide_div_mod_eq]
    exact decide_eq_decide.2 (by omega)
  rw [← UInt8.toNat_inj, high, bit, UInt8.lt_iff_toNat_lt]
  by_cases h : 128 ≤ x.toNat
  · simp [h]
  · simp [h, Nat.not_le.1 h]

theorem ofNat_or_shiftLeft {j n : Nat} (hj : j ≤ 4) (hn : n < 2 ^ (7 * j)) (x : UInt8) :
    UInt32.ofNat n ||| ((x &&& 0x7F).toUInt32 <<< UInt32.ofNat (7 * j)) =
      UInt32.ofNat (n + 2 ^ (7 * j) * (x.toNat % 128)) := by
  have hs : (UInt32.ofNat (7 * j)).toNat % 32 = 7 * j := by
    rw [UInt32.toNat_ofNat']
    omega
  apply UInt32.toNat_inj.1
  rw [UInt32.toNat_or, UInt32.toNat_shiftLeft, hs, UInt8.toNat_toUInt32, toNat_low,
    UInt32.toNat_ofNat', UInt32.toNat_ofNat', ← Nat.or_mod_two_pow, Nat.or_comm,
    Nat.shiftLeft_eq, Nat.mul_comm, ← Nat.two_pow_add_eq_or_of_lt hn, Nat.add_comm]

theorem accumulate_eq {b : Bytes} {start left j p n : Nat} (hl : left + j ≤ 5)
    (hn : n < 2 ^ (7 * j)) :
    accumulate b start left p (UInt32.ofNat (7 * j)) (UInt32.ofNat n) =
      (groups b start left p).map fun r => (UInt32.ofNat (n + 2 ^ (7 * j) * r.1), r.2) := by
  -- What is accumulated is made of the first `j` groups; the others stand above its bits.
  induction left generalizing j p n with
  | zero => rfl
  | succ left ih =>
      rw [accumulate, groups]
      cases b[p]? with
      | none => rfl
      | some x =>
          simp only [ofNat_or_shiftLeft (by omega : j ≤ 4) hn, high_eq_zero_iff]
          by_cases hx : x < 128
          · have hm : x.toNat % 128 = x.toNat := Nat.mod_eq_of_lt hx
            simp only [hx, if_true, hm]
            rfl
          · have hs : UInt32.ofNat (7 * j) + 7 = UInt32.ofNat (7 * (j + 1)) :=
              (UInt32.ofNat_add ..).symm
            have hp : 2 ^ (7 * (j + 1)) = 2 ^ (7 * j) * 128 := by
              rw [Nat.mul_succ, Nat.pow_add]
            have hv : n + 2 ^ (7 * j) * (x.toNat % 128) < 2 ^ (7 * (j + 1)) := by
              have hx : x.toNat % 128 + 1 ≤ 128 := by omega
              have := Nat.mul_le_mul_left (2 ^ (7 * j)) hx
              rw [Nat.mul_succ] at this
              omega
            simp only [hx, if_false, hs]
            rw [ih (by omega) hv, hp]
            cases groups b start left (p + 1) with
            | error e => rfl
            | ok r =>
                have hg : n + 2 ^ (7 * j) * (x.toNat % 128) + 2 ^ (7 * j) * 128 * r.1 =
                    n + 2 ^ (7 * j) * (x.toNat % 128 + 128 * r.1) := by ring
                simp only [Except.map, hg]

theorem decode_eq_groups (b : Bytes) (p : Nat) :
    decode b p = (groups b p 5 p).map fun r => (UInt32.ofNat r.1, r.2) := by
  have h : accumulate b p 5 p (UInt32.ofNat (7 * 0)) (UInt32.ofNat 0) = _ :=
    accumulate_eq (by omega) (by decide)
  simpa [decode] using h

def EndsAfter (b : Bytes) (p k : Nat) : Prop :=
  p + k < b.size ∧ byteAt b (p + k) < 128 ∧ ∀ i < k, 128 ≤ byteAt b (p + i)

def total (b : Bytes) (p k : Nat) : Nat :=
  ∑ i ∈ Finset.range (k + 1), (byteAt b (p + i)).toNat % 128 * 2 ^ (7 * i)

def Continues (b : Bytes) (p n : Nat) : Prop :=
  ∀ i < n, p + i < b.size ∧ 128 ≤ byteAt b (p + i)

instance (b : Bytes) (p k : Nat) : Decidable (EndsAfter b p k) :=
  inferInstanceAs (Decidable (_ ∧ _ ∧ ∀ i < k, _))

instance (b : Bytes) (p n : Nat) : Decidable (Continues b p n) :=
  inferInstanceAs (Decidable (∀ i < n, _))

theorem endsAfter_zero {b : Bytes} {p : Nat} :
    EndsAfter b p 0 ↔ p < b.size ∧ byteAt b p < 128 := by
  simp [EndsAfter]

theorem endsAfter_succ {b : Bytes} {p k : Nat} :
    EndsAfter b p (k + 1) ↔ 128 ≤ byteAt b p ∧ EndsAfter b (p + 1) k := by
  have shift (i : Nat) : p + 1 + i = p + (i + 1) := by omega
  simp only [EndsAfter, shift]
  constructor
  · rintro ⟨hs, hk, hi⟩
    exact ⟨hi 0 (by omega), hs, hk, fun i h => hi (i + 1) (by omega)⟩
  · rintro ⟨h0, hs, hk, hi⟩
    refine ⟨hs, hk, fun i h => ?_⟩
    cases i with
    | zero => exact h0
    | succ i => exact hi i (by omega)

theorem Continues.cons {b : Bytes} {p n : Nat} (hp : p < b.size) (hx : 128 ≤ byteAt b p)
    (h : Continues b (p + 1) n) : Continues b p (n + 1) := by
  intro i hi
  cases i with
  | zero => exact ⟨hp, hx⟩
  | succ i =>
      rw [show p + (i + 1) = p + 1 + i by omega]
      exact h i (Nat.lt_of_succ_lt_succ hi)

theorem total_zero (b : Bytes) (p : Nat) : total b p 0 = (byteAt b p).toNat % 128 := by
  simp [total]

theorem total_succ (b : Bytes) (p k : Nat) :
    total b p (k + 1) = (byteAt b p).toNat % 128 + 128 * total b (p + 1) k := by
  have shift (i : Nat) : p + 1 + i = p + (i + 1) := by omega
  have scale (i : Nat) : (byteAt b (p + (i + 1))).toNat % 128 * 2 ^ (7 * (i + 1)) =
      128 * ((byteAt b (p + (i + 1))).toNat % 128 * 2 ^ (7 * i)) := by
    rw [Nat.mul_succ, Nat.pow_add]
    ring
  simp only [total, shift]
  rw [Finset.sum_range_succ', Finset.mul_sum, Nat.add_comm]
  simp [scale]

theorem groups_eq_ok_iff {b : Bytes} {start n p v next : Nat} :
    groups b start n p = .ok (v, next) ↔
      ∃ k < n, EndsAfter b p k ∧ v = total b p k ∧ next = p + k + 1 := by
  induction n generalizing p v with
  | zero => simp [groups, fail]
  | succ n ih =>
      rw [groups]
      by_cases hp : p < b.size
      · rw [getElem?_eq_byteAt hp]
        by_cases hx : byteAt b p < 128
        · simp only [hx, if_true, Except.ok.injEq, Prod.mk.injEq]
          have hm : (byteAt b p).toNat % 128 = (byteAt b p).toNat := Nat.mod_eq_of_lt hx
          constructor
          · rintro ⟨rfl, rfl⟩
            exact ⟨0, by omega, endsAfter_zero.2 ⟨hp, hx⟩, by rw [total_zero, hm], rfl⟩
          · rintro ⟨k, _, hk, rfl, rfl⟩
            cases k with
            | zero => exact ⟨by rw [total_zero, hm], rfl⟩
            | succ k => exact absurd (endsAfter_succ.1 hk).1 (UInt8.not_le.2 hx)
        · simp only [hx, if_false]
          constructor
          · intro h
            split at h
            next u q hg =>
              cases h
              obtain ⟨k, hk, he, rfl, rfl⟩ := ih.1 hg
              exact ⟨k + 1, by omega, endsAfter_succ.2 ⟨UInt8.not_lt.1 hx, he⟩,
                (total_succ b p k).symm, by omega⟩
            next => cases h
          · rintro ⟨k, hk, he, rfl, rfl⟩
            cases k with
            | zero => exact absurd (endsAfter_zero.1 he).2 hx
            | succ k =>
                rw [ih.2 ⟨k, by omega, (endsAfter_succ.1 he).2, rfl, by omega⟩, total_succ]
      · rw [Array.getElem?_eq_none (by omega)]
        simp only [fail, reduceCtorEq, false_iff]
        rintro ⟨k, _, he, _⟩
        have := he.1
        omega

theorem groups_error {b : Bytes} {start n p : Nat} {e : Error}
    (h : groups b start n p = .error e) :
    Continues b p n ∧ e = ⟨.overlongVarint start, []⟩ ∨
      b.size < p + n ∧ e = ⟨.unfinishedVarint (max p b.size), []⟩ := by
  induction n generalizing p with
  | zero =>
      cases h
      exact .inl ⟨fun i hi => absurd hi (Nat.not_lt_zero i), rfl⟩
  | succ n ih =>
      rw [groups] at h
      by_cases hp : p < b.size
      · rw [getElem?_eq_byteAt hp] at h
        by_cases hx : byteAt b p < 128
        · simp [hx] at h
        · have he : groups b start n (p + 1) = .error e := by
            simp only [hx, if_false] at h
            split at h
            next => cases h
            next hd => exact hd.trans h
          rcases ih he with ⟨hc, rfl⟩ | ⟨hs, rfl⟩
          · exact .inl ⟨hc.cons hp (UInt8.not_lt.1 hx), rfl⟩
          · rw [max_eq_right (by omega), max_eq_right (by omega)]
            exact .inr ⟨by omega, rfl⟩
      · rw [Array.getElem?_eq_none (by omega)] at h
        cases h
        exact .inr ⟨by omega, by rw [max_eq_left (by omega)]⟩

theorem decode_eq_ok_iff {b : Bytes} {p next : Nat} {v : UInt32} :
    decode b p = .ok (v, next) ↔
      ∃ k < 5, EndsAfter b p k ∧ v = UInt32.ofNat (total b p k) ∧ next = p + k + 1 := by
  rw [decode_eq_groups, map_eq_ok_iff]
  constructor
  · rintro ⟨⟨n, q⟩, hg, h⟩
    obtain ⟨k, hk, he, rfl, rfl⟩ := groups_eq_ok_iff.1 hg
    cases h
    exact ⟨k, hk, he, rfl, rfl⟩
  · rintro ⟨k, hk, he, rfl, rfl⟩
    exact ⟨(total b p k, p + k + 1), groups_eq_ok_iff.2 ⟨k, hk, he, rfl, rfl⟩, rfl⟩

theorem decode_error {b : Bytes} {p : Nat} {e : Error} (h : decode b p = .error e) :
    Continues b p 5 ∧ e = ⟨.overlongVarint p, []⟩ ∨
      b.size < p + 5 ∧ e = ⟨.unfinishedVarint (max p b.size), []⟩ := by
  rw [decode_eq_groups, map_eq_error_iff] at h
  exact groups_error h

end DexListing.Varint
