import DexListing.Layout
import DexListing.Proofs.Bytes.Varint

namespace DexListing

structure Holds (b : Bytes) (p : Nat) (xs : List UInt8) : Prop where
  le : p + xs.length ≤ b.size
  bytes : ∀ i, (h : i < xs.length) → byteAt b (p + i) = xs[i]

namespace Holds

variable {α : Type} {b : Bytes} {p : Nat} {xs ys : List UInt8}

theorem toArray (xs : List UInt8) : Holds xs.toArray 0 xs where
  le := by simp
  bytes := by
    intro i h
    simp [byteAt, h]

theorem append_iff : Holds b p (xs ++ ys) ↔ Holds b p xs ∧ Holds b (p + xs.length) ys := by
  constructor
  · rintro ⟨hle, hb⟩
    have hl : (xs ++ ys).length = xs.length + ys.length := List.length_append
    refine ⟨⟨by omega, fun i hi => ?_⟩, ⟨by omega, fun i hi => ?_⟩⟩
    · rw [hb i (by omega), List.getElem_append_left hi]
    · rw [Nat.add_assoc, hb (xs.length + i) (by omega), List.getElem_append_right (by omega)]
      simp
  · rintro ⟨⟨_, hx⟩, ⟨hle, hy⟩⟩
    refine ⟨by rw [List.length_append]; omega, fun i hi => ?_⟩
    by_cases h : i < xs.length
    · rw [hx i h, List.getElem_append_left h]
    · rw [List.length_append] at hi
      have hs : p + xs.length + (i - xs.length) = p + i := by omega
      rw [List.getElem_append_right (by omega), ← hy (i - xs.length) (by omega), hs]

theorem cons_iff {x : UInt8} :
    Holds b p (x :: xs) ↔ (p < b.size ∧ byteAt b p = x) ∧ Holds b (p + 1) xs := by
  rw [← List.singleton_append, append_iff]
  refine and_congr_left fun _ => ⟨fun h => ⟨h.le, h.bytes 0 (by simp)⟩, ?_⟩
  rintro ⟨hp, hx⟩
  refine ⟨hp, fun i hi => ?_⟩
  rw [List.length_singleton, Nat.lt_one_iff] at hi
  subst hi
  exact hx

theorem flatMap {f : α → List UInt8} {w : Nat} (hw : ∀ x, (f x).length = w) {l : List α}
    (h : Holds b p (l.flatMap f)) (i : Nat) (hi : i < l.length) :
    Holds b (p + w * i) (f l[i]) := by
  induction l generalizing p i with
  | nil => cases hi
  | cons x l ih =>
      rw [List.flatMap_cons, append_iff, hw] at h
      cases i with
      | zero => exact h.1
      | succ i =>
          rw [show p + w * (i + 1) = p + w + w * i by rw [Nat.mul_succ]; omega]
          exact ih h.2 i (by simpa using hi)

theorem window_toList (h : Holds b p xs) : (window b p xs.length).toList = xs := by
  apply List.ext_getElem
  · simp
  · intro i hi hx
    rw [Vector.getElem_toList, getElem_window hx, h.bytes i hx]

end Holds

namespace Layout

theorem length_bytes16 (v : UInt16) : (bytes16 v).length = 2 := rfl

theorem length_bytes32 (v : UInt32) : (bytes32 v).length = 4 := rfl

theorem length_zeros (n : Nat) : (zeros n).length = n :=
  List.length_replicate

theorem length_flatMap {α : Type} {f : α → List UInt8} {w : Nat} (hw : ∀ x, (f x).length = w)
    (l : List α) : (l.flatMap f).length = w * l.length := by
  induction l with
  | nil => rfl
  | cons x l ih => rw [List.flatMap_cons, List.length_append, hw, ih, List.length_cons, Nat.mul_succ,
      Nat.add_comm]

variable {b : Bytes} {p : Nat}

theorem word16At_bytes16 {v : UInt16} (h : Holds b p (bytes16 v)) : word16At b p = v := by
  simp only [bytes16, Holds.cons_iff] at h
  obtain ⟨⟨_, h0⟩, ⟨_, h1⟩, _⟩ := h
  have hv := v.toNat_lt
  apply UInt16.toNat_inj.1
  rw [word16At, word16, h0, h1, UInt16.toNat_ofNat', UInt8.toNat_ofNat', UInt8.toNat_ofNat']
  omega

theorem word32At_bytes32 {v : UInt32} (h : Holds b p (bytes32 v)) : word32At b p = v := by
  simp only [bytes32, Holds.cons_iff] at h
  obtain ⟨⟨_, h0⟩, ⟨_, h1⟩, ⟨_, h2⟩, ⟨_, h3⟩, _⟩ := h
  have hv := v.toNat_lt
  apply UInt32.toNat_inj.1
  rw [word32At, word32, h0, h1, h2, h3, UInt32.toNat_ofNat', UInt8.toNat_ofNat', UInt8.toNat_ofNat',
    UInt8.toNat_ofNat', UInt8.toNat_ofNat']
  omega

end Layout

namespace Varint

theorem length_encodeNat_le {n k : Nat} (h : n < 128 ^ (k + 1)) : (encodeNat n).length ≤ k + 1 := by
  induction k generalizing n with
  | zero =>
      rw [encodeNat, if_pos (by simpa using h)]
      rfl
  | succ k ih =>
      rw [encodeNat]
      split
      · simp
      · have hk : n / 128 < 128 ^ (k + 1) := by
          rw [Nat.pow_succ 128 (k + 1)] at h
          exact Nat.div_lt_of_lt_mul (by omega)
        simpa using ih hk

theorem endsAfter_of_holds {b : Bytes} {p n : Nat} (h : Holds b p (encodeNat n)) :
    ∃ k, (encodeNat n).length = k + 1 ∧ EndsAfter b p k ∧ total b p k = n := by
  induction n using encodeNat.induct generalizing p with
  | case1 n hn =>
      rw [encodeNat, if_pos hn] at h ⊢
      obtain ⟨⟨hp, hx⟩, _⟩ := Holds.cons_iff.1 h
      have hv : (byteAt b p).toNat = n := by
        rw [hx, UInt8.toNat_ofNat']
        omega
      refine ⟨0, rfl, endsAfter_zero.2 ⟨hp, ?_⟩, ?_⟩
      · rw [UInt8.lt_iff_toNat_lt, hv]
        exact hn
      · rw [total_zero, hv, Nat.mod_eq_of_lt hn]
  | case2 n hn ih =>
      rw [encodeNat, if_neg hn] at h ⊢
      obtain ⟨⟨hp, hx⟩, ht⟩ := Holds.cons_iff.1 h
      have hv : (byteAt b p).toNat = n % 128 + 128 := by
        rw [hx, UInt8.toNat_ofNat']
        omega
      obtain ⟨k, hk, he, hs⟩ := ih ht
      refine ⟨k + 1, by rw [List.length_cons, hk], endsAfter_succ.2 ⟨?_, he⟩, ?_⟩
      · rw [UInt8.le_iff_toNat_le, hv]
        exact Nat.le_add_left ..
      · rw [total_succ, hv, hs]
        omega

theorem endsAfter_of_holds_encode {b : Bytes} {p : Nat} {v : UInt32} (h : Holds b p (encode v)) :
    ∃ k < 5, (encode v).length = k + 1 ∧ EndsAfter b p k ∧ total b p k = v.toNat := by
  have hv := v.toNat_lt
  rw [encode_eq_encodeNat] at h ⊢
  have hl : (encodeNat v.toNat).length ≤ 5 := length_encodeNat_le (k := 4) (by omega)
  obtain ⟨k, hk, he, hs⟩ := endsAfter_of_holds h
  exact ⟨k, by omega, hk, he, hs⟩

end Varint

end DexListing
