import DexListing.Proofs.Bytes.Holds
import Mathlib.Tactic.IntervalCases

namespace DexListing

theorem Holds.extract {b : Bytes} {p q : Nat} (h : p ≤ q) (hq : q ≤ b.size) :
    Holds b p (b.extract p q).toList where
  le := by simp; omega
  bytes := by
    intro i hi
    rw [Array.length_toList, Array.size_extract] at hi
    simp [byteAt, show p + i < b.size by omega]

theorem Holds.eq_extract {b : Bytes} {p : Nat} {xs : List UInt8} (h : Holds b p xs) :
    xs = (b.extract p (p + xs.length)).toList := by
  have hle := h.le
  apply List.ext_getElem
  · simp
    omega
  · intro i hi _
    rw [← h.bytes i hi]
    simp [byteAt, show p + i < b.size by omega]

theorem Holds.between (before after : Bytes) (xs : List UInt8) :
    Holds (before ++ xs.toArray ++ after) before.size xs := by
  have whole := Holds.toArray (before.toList ++ xs ++ after.toList)
  obtain ⟨_, h⟩ := Holds.append_iff.1 (Holds.append_iff.1 whole).1
  have parts : (before.toList ++ xs ++ after.toList).toArray = before ++ xs.toArray ++ after := by
    simp only [← List.append_toArray, Array.toArray_toList]
  rwa [parts, Nat.zero_add, Array.length_toList] at h

namespace Varint

variable {b : Bytes} {o p k : Nat}

theorem lowGroups_lt (b : Bytes) (p k : Nat) :
    ∑ i ∈ Finset.range k, (byteAt b (p + i)).toNat % 128 * 2 ^ (7 * i) < 2 ^ (7 * k) := by
  induction k with
  | zero => simp
  | succ k ih =>
      have hg : (byteAt b (p + k)).toNat % 128 + 1 ≤ 128 := Nat.mod_lt _ (by decide)
      rw [Finset.sum_range_succ, Nat.mul_succ, Nat.pow_add, Nat.mul_comm (2 ^ (7 * k))]
      calc _ < 2 ^ (7 * k) + (byteAt b (p + k)).toNat % 128 * 2 ^ (7 * k) :=
            Nat.add_lt_add_right ih _
        _ = ((byteAt b (p + k)).toNat % 128 + 1) * 2 ^ (7 * k) := by ring
        _ ≤ 2 ^ 7 * 2 ^ (7 * k) := Nat.mul_le_mul_right _ hg

theorem EndsAfter.total_eq (h : EndsAfter b p k) :
    ∃ low < 2 ^ (7 * k), total b p k = low + (byteAt b (p + k)).toNat * 2 ^ (7 * k) := by
  have last : (byteAt b (p + k)).toNat % 128 = (byteAt b (p + k)).toNat := Nat.mod_eq_of_lt h.2.1
  exact ⟨_, lowGroups_lt b p k, by rw [total, Finset.sum_range_succ, last]⟩

theorem EndsAfter.unique {j : Nat} (hj : EndsAfter b p j) (hk : EndsAfter b p k) : j = k := by
  obtain ⟨_, endj, goj⟩ := hj
  obtain ⟨_, endk, gok⟩ := hk
  rcases Nat.lt_trichotomy j k with h | h | h
  · exact absurd endj (UInt8.not_lt.2 (gok j h))
  · exact h
  · exact absurd endk (UInt8.not_lt.2 (goj k h))

theorem EndsAfter.last_eq_zero (h : EndsAfter b p k) (ht : total b p k = 0) :
    byteAt b (p + k) = 0 := by
  obtain ⟨low, _, he⟩ := h.total_eq
  have hz : (byteAt b (p + k)).toNat * 2 ^ (7 * k) = 0 := by omega
  have := (Nat.mul_eq_zero.1 hz).resolve_right (Nat.two_pow_pos _).ne'
  exact UInt8.toNat_inj.1 this

theorem encodeNat_cons {x : UInt8} {n : Nat} (hx : 128 ≤ x) (hn : n ≠ 0) :
    encodeNat (x.toNat % 128 + 128 * n) = x :: encodeNat n := by
  have high : 128 ≤ x.toNat := hx
  have bound := x.toNat_lt
  have rest : (x.toNat % 128 + 128 * n) / 128 = n := by omega
  have group : (x.toNat % 128 + 128 * n) % 128 + 128 = x.toNat := by omega
  rw [encodeNat, if_neg (by omega), rest, group, UInt8.ofNat_toNat]

theorem EndsAfter.holds_encodeNat_iff (h : EndsAfter b p k) :
    Holds b p (encodeNat (total b p k)) ↔ k = 0 ∨ byteAt b (p + k) ≠ 0 := by
  induction k generalizing p with
  | zero =>
      obtain ⟨hp, hx⟩ := endsAfter_zero.1 h
      have hn : (byteAt b p).toNat < 128 := hx
      rw [total_zero, Nat.mod_eq_of_lt hn, encodeNat, if_pos hn, UInt8.ofNat_toNat]
      simp only [true_or, iff_true]
      exact Holds.cons_iff.2 ⟨⟨hp, rfl⟩, ⟨hp, fun i hi => absurd hi (Nat.not_lt_zero i)⟩⟩
  | succ k ih =>
      obtain ⟨hx, hk⟩ := endsAfter_succ.1 h
      have hp : p < b.size := Nat.lt_of_le_of_lt (Nat.le_add_right ..) h.1
      have last : byteAt b (p + (k + 1)) = byteAt b (p + 1 + k) := by
        rw [show p + (k + 1) = p + 1 + k by omega]
      rw [total_succ, last]
      by_cases ht : total b (p + 1) k = 0
      · -- The encoder stops at the first byte here, and that byte goes on in the buffer.
        have hz := hk.last_eq_zero ht
        rw [ht, encodeNat, if_pos (by omega), hz]
        simp only [Nat.succ_ne_zero, ne_eq, not_true_eq_false, or_self, iff_false, Holds.cons_iff]
        rintro ⟨⟨_, he⟩, _⟩
        have hn : 128 ≤ (byteAt b p).toNat := hx
        have := congrArg UInt8.toNat he
        rw [UInt8.toNat_ofNat'] at this
        omega
      · have hz : k = 0 → byteAt b (p + 1 + k) ≠ 0 := by
          rintro rfl hz
          rw [total_zero, Nat.add_zero] at *
          rw [hz] at ht
          exact ht rfl
        rw [encodeNat_cons hx ht, Holds.cons_iff, ih hk]
        simp only [hp, true_and, Nat.succ_ne_zero, false_or]
        exact ⟨fun h => h.elim hz id, .inr⟩

theorem total_lt (b : Bytes) (p k : Nat) : total b p k < 128 ^ (k + 1) := by
  rw [show 128 = 2 ^ 7 from rfl, ← Nat.pow_mul]
  exact lowGroups_lt b p (k + 1)

theorem EndsAfter.total_lt_iff (h : EndsAfter b p k) (hk : k < 5) :
    total b p k < 2 ^ 32 ↔ k < 4 ∨ byteAt b (p + k) ≤ 0x0F := by
  obtain ⟨low, hl, ht⟩ := h.total_eq
  have hx : (byteAt b (p + k)).toNat < 128 := h.2.1
  rw [ht, UInt8.le_iff_toNat_le]
  change _ ↔ k < 4 ∨ (byteAt b (p + k)).toNat ≤ 15
  interval_cases k <;> omega

theorem holds_encode_iff {v : UInt32} (h : EndsAfter b p k) (hk : k < 5)
    (hv : v = UInt32.ofNat (total b p k)) :
    Holds b p (encode v) ↔
      (k = 0 ∨ byteAt b (p + k) ≠ 0) ∧ (k < 4 ∨ byteAt b (p + k) ≤ 0x0F) := by
  rw [← h.total_lt_iff hk, ← h.holds_encodeNat_iff]
  have kept (ht : total b p k < 2 ^ 32) : encode v = encodeNat (total b p k) := by
    rw [encode_eq_encodeNat, hv, UInt32.toNat_ofNat', Nat.mod_eq_of_lt ht]
  constructor
  · intro hs
    obtain ⟨j, _, _, hj, hn⟩ := endsAfter_of_holds_encode hs
    obtain rfl := hj.unique h
    have ht : total b p j < 2 ^ 32 := hn ▸ v.toNat_lt
    exact ⟨kept ht ▸ hs, ht⟩
  · rintro ⟨hs, ht⟩
    rw [kept ht]
    exact hs

theorem length_encode_pos (v : UInt32) : 1 ≤ (encode v).length := by
  rw [encode_eq_encodeNat, encodeNat]
  split <;> simp

theorem length_encode_le (v : UInt32) : (encode v).length ≤ 5 := by
  have hv := v.toNat_lt
  rw [encode_eq_encodeNat]
  exact length_encodeNat_le (k := 4) (by omega)

theorem length_encode_le_of_decode {v : UInt32} {stop : Nat} (h : decode b o = .ok (v, stop)) :
    o + (encode v).length ≤ stop ∧ stop ≤ b.size := by
  obtain ⟨k, _, he, rfl, rfl⟩ := decode_eq_ok_iff.1 h
  have ht : (UInt32.ofNat (total b o k)).toNat < 128 ^ (k + 1) := by
    rw [UInt32.toNat_ofNat']
    exact Nat.lt_of_le_of_lt (Nat.mod_le ..) (total_lt b o k)
  have hl := length_encodeNat_le ht
  rw [← encode_eq_encodeNat] at hl
  exact ⟨by omega, he.1⟩

theorem encode_eq_extract_iff {v : UInt32} {stop : Nat} (h : decode b o = .ok (v, stop)) :
    encode v = (b.extract o stop).toList ↔
      (stop - o = 1 ∨ byteAt b (stop - 1) ≠ 0) ∧
        (stop - o < 5 ∨ byteAt b (stop - 1) ≤ 0x0F) := by
  obtain ⟨k, hk, he, hv, rfl⟩ := decode_eq_ok_iff.1 h
  have first : o + k + 1 - o = 1 ↔ k = 0 := by omega
  have fifth : o + k + 1 - o < 5 ↔ k < 4 := by omega
  rw [first, fifth, Nat.add_sub_cancel, ← holds_encode_iff he hk hv]
  constructor
  · intro hs
    rw [hs]
    exact Holds.extract (by omega) he.1
  · intro hs
    obtain ⟨j, _, hl, hj, _⟩ := endsAfter_of_holds_encode hs
    obtain rfl := hj.unique he
    rw [hs.eq_extract, hl, Nat.add_assoc]

def decodeMany (b : Bytes) : Nat → Nat → Except Error (List UInt32 × Nat)
  | 0, p => .ok ([], p)
  | n + 1, p => do
    let (v, next) ← decode b p
    let (vs, stop) ← decodeMany b n next
    return (v :: vs, stop)

theorem decode_of_holds {v : UInt32} (h : Holds b p (encode v)) :
    decode b p = .ok (v, p + (encode v).length) := by
  obtain ⟨k, hk, hl, he, ht⟩ := endsAfter_of_holds_encode h
  refine decode_eq_ok_iff.2 ⟨k, hk, he, ?_, by omega⟩
  rw [ht, UInt32.ofNat_toNat]

theorem decodeMany_of_holds {vs : List UInt32} (h : Holds b p (vs.flatMap encode)) :
    decodeMany b vs.length p = .ok (vs, p + (vs.flatMap encode).length) := by
  induction vs generalizing p with
  | nil => rfl
  | cons v vs ih =>
      rw [List.flatMap_cons, Holds.append_iff] at h
      rw [List.length_cons, decodeMany, decode_of_holds h.1]
      change decodeMany b vs.length _ >>= _ = _
      rw [ih h.2, List.flatMap_cons, List.length_append, Nat.add_assoc]
      rfl

/-- Values that are encoded one after another are decoded again wherever they stand. An encoding
is the shortest form of its value, and the only form but for those that end in an empty group or
carry more than 32 bits. -/
theorem encode_is_the_shortest_form :
    (∀ (vs : List UInt32) (before after : Bytes),
      decodeMany (before ++ (vs.flatMap encode).toArray ++ after) vs.length before.size =
        .ok (vs, before.size + (vs.flatMap encode).length)) ∧
      (∀ v, 1 ≤ (encode v).length ∧ (encode v).length ≤ 5 ∧
        ∀ b o stop, decode b o = .ok (v, stop) →
          o + (encode v).length ≤ stop ∧ stop ≤ b.size) ∧
      ∀ b o v stop, decode b o = .ok (v, stop) →
        (encode v = (b.extract o stop).toList ↔
          (stop - o = 1 ∨ byteAt b (stop - 1) ≠ 0) ∧
            (stop - o < 5 ∨ byteAt b (stop - 1) ≤ 0x0F)) := by
  refine ⟨fun vs before after => ?_, fun v => ?_, fun b o v stop => encode_eq_extract_iff⟩
  · exact decodeMany_of_holds (.between before after _)
  · exact ⟨length_encode_pos v, length_encode_le v, fun b o stop => length_encode_le_of_decode⟩

theorem encode_is_the_shortest_form_overlong :
    let b : Bytes := #[0x80, 0x00, 0xFF, 0xFF, 0xFF, 0xFF, 0x7F]
    decode b 0 = .ok (0, 2) ∧ encode 0 ≠ (b.extract 0 2).toList ∧
      decode b 2 = .ok (0xFFFFFFFF, 7) ∧ encode 0xFFFFFFFF ≠ (b.extract 2 7).toList ∧
      2 + (encode 0xFFFFFFFF).length ≤ 7 := by
  intro b
  obtain ⟨-, shortest, only⟩ := encode_is_the_shortest_form
  have zero : decode b 0 = .ok (0, 2) := by decide +kernel
  have cut : decode b 2 = .ok (0xFFFFFFFF, 7) := by decide +kernel
  refine ⟨zero, fun h => ?_, cut, fun h => ?_, ((shortest _).2.2 b 2 7 cut).1⟩
  · exact absurd ((only b 0 0 2 zero).1 h).1 (by decide)
  · exact absurd ((only b 2 _ 7 cut).1 h).2 (by decide)

end Varint

end DexListing
