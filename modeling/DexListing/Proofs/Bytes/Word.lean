import DexListing.Reader

namespace DexListing

def byteAt (b : Bytes) (p : Nat) : UInt8 :=
  b[p]?.getD 0

def word16At (b : Bytes) (p : Nat) : UInt16 :=
  word16 (byteAt b p) (byteAt b (p + 1))

def word32At (b : Bytes) (p : Nat) : UInt32 :=
  word32 (byteAt b p) (byteAt b (p + 1)) (byteAt b (p + 2)) (byteAt b (p + 3))

def window (b : Bytes) (p n : Nat) : Vector UInt8 n :=
  Vector.ofFn fun i => byteAt b (p + i)

theorem getElem?_eq_byteAt {b : Bytes} {p : Nat} (h : p < b.size) : b[p]? = some (byteAt b p) := by
  simp [byteAt, h]

theorem getElem_window {b : Bytes} {p n i : Nat} (h : i < n) :
    (window b p n)[i] = byteAt b (p + i) := by
  simp [window]

theorem slice_of_le {b : Bytes} {p n : Nat} (h : p + n ≤ b.size) :
    slice b p n = .ok (window b p n) := by
  rw [slice_eq_ok_iff]
  refine ⟨h, fun i hi => ?_⟩
  rw [getElem?_eq_byteAt (by omega), getElem_window hi]

theorem slice_of_lt {b : Bytes} {p n : Nat} (h : b.size < p + n) :
    slice b p n = .error ⟨.outOfBounds n p b.size, []⟩ :=
  slice_eq_error_iff.2 ⟨h, rfl⟩

theorem u16_window (b : Bytes) (p n i : Nat) (h : i + 2 ≤ n) :
    u16 (window b p n) i h = word16At b (p + i) := by
  simp only [u16, word16At, getElem_window, Nat.add_assoc]

theorem u32_window (b : Bytes) (p n i : Nat) (h : i + 4 ≤ n) :
    u32 (window b p n) i h = word32At b (p + i) := by
  simp only [u32, word32At, getElem_window, Nat.add_assoc]

def WordStands (b : Bytes) (p : Nat) (v : UInt32) : Prop :=
  ∃ x y z w : UInt8, b[p]? = some x ∧ b[p + 1]? = some y ∧ b[p + 2]? = some z ∧
    b[p + 3]? = some w ∧
    v.toNat = x.toNat + 256 * y.toNat + 65536 * z.toNat + 16777216 * w.toNat

theorem toNat_word32 (x y z w : UInt8) :
    (word32 x y z w).toNat =
      x.toNat + 256 * y.toNat + 65536 * z.toNat + 16777216 * w.toNat := by
  have hx := x.toNat_lt
  have hy := y.toNat_lt
  have hz := z.toNat_lt
  have hw := w.toNat_lt
  rw [word32, UInt32.toNat_ofNat']
  omega

theorem wordStands_iff {b : Bytes} {p : Nat} {v : UInt32} :
    WordStands b p v ↔ p + 4 ≤ b.size ∧ v = word32At b p := by
  constructor
  · rintro ⟨x, y, z, w, hx, hy, hz, hw, hv⟩
    refine ⟨(Array.getElem?_eq_some_iff.1 hw).1, UInt32.toNat_inj.1 ?_⟩
    rw [hv, word32At, byteAt, byteAt, byteAt, byteAt, hx, hy, hz, hw, toNat_word32]
    rfl
  · rintro ⟨hp, rfl⟩
    exact ⟨_, _, _, _, getElem?_eq_byteAt (by omega), getElem?_eq_byteAt (by omega),
      getElem?_eq_byteAt (by omega), getElem?_eq_byteAt (by omega), toNat_word32 ..⟩

namespace Reader

variable {α : Type} {n p : Nat} {b : Bytes}

theorem record_of_le (parse : Vector UInt8 n → Except Error α) (h : p + n ≤ b.size) :
    record n parse b p = ⟨parse (window b p n), p + n⟩ :=
  record_of_ok (slice_of_le h)

theorem record_of_lt (parse : Vector UInt8 n → Except Error α) (h : b.size < p + n) :
    record n parse b p = ⟨.error ⟨.outOfBounds n p b.size, []⟩, p⟩ :=
  record_of_error (slice_of_lt h)

theorem result_record_eq_ok_iff {parse : Vector UInt8 n → Except Error α} {a : α} :
    (record n parse b p).result = .ok a ↔ p + n ≤ b.size ∧ parse (window b p n) = .ok a := by
  by_cases fits : p + n ≤ b.size
  · rw [record_of_le parse fits]
    exact (and_iff_right fits).symm
  · rw [record_of_lt parse (Nat.not_le.1 fits)]
    simp [fits]

theorem word32_of_le (h : p + 4 ≤ b.size) : (word32 b p).result = .ok (word32At b p) := by
  rw [word32, record_of_le _ h, u32_window, Nat.add_zero]

theorem word32_eq_ok_iff {v : UInt32} :
    (word32 b p).result = .ok v ↔ WordStands b p v := by
  rw [wordStands_iff]
  by_cases fits : p + 4 ≤ b.size
  · rw [word32_of_le fits, Except.ok.injEq, eq_comm]
    exact (and_iff_right fits).symm
  · rw [word32, record_of_lt _ (Nat.not_le.1 fits)]
    simp [fits]

theorem word32_eq_error_iff {e : Error} :
    (word32 b p).result = .error e ↔ b.size < p + 4 ∧ e = ⟨.outOfBounds 4 p b.size, []⟩ := by
  by_cases fits : p + 4 ≤ b.size
  · rw [word32_of_le fits]
    simp only [reduceCtorEq, false_iff]
    omega
  · rw [word32, record_of_lt _ (Nat.not_le.1 fits)]
    simp only [Except.error.injEq]
    rw [eq_comm]
    exact (and_iff_right (Nat.not_le.1 fits)).symm

end Reader

end DexListing
