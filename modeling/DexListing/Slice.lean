import DexListing.Error

namespace DexListing

abbrev Bytes := Array UInt8

def word16 (x y : UInt8) : UInt16 :=
  UInt16.ofNat (x.toNat + 256 * y.toNat)

def word32 (x y z w : UInt8) : UInt32 :=
  UInt32.ofNat (x.toNat + 256 * (y.toNat + 256 * (z.toNat + 256 * w.toNat)))

def ensure (b : Bytes) (p n : Nat) : Except Error Unit :=
  if p + n ≤ b.size then .ok () else fail (.outOfBounds n p b.size)

def slice (b : Bytes) (p n : Nat) : Except Error (Vector UInt8 n) :=
  if h : p + n ≤ b.size then
    .ok (Vector.ofFn fun i => b[p + i])
  else
    fail (.outOfBounds n p b.size)

theorem slice_eq_ok_iff {b : Bytes} {p n : Nat} {w : Vector UInt8 n} :
    slice b p n = .ok w ↔ p + n ≤ b.size ∧ ∀ i, (h : i < n) → b[p + i]? = some w[i] := by
  rw [slice]
  split
  next h =>
    constructor
    · intro hw
      cases hw
      refine ⟨h, fun i hi => ?_⟩
      simp [show p + i < b.size by omega]
    · rintro ⟨_, hw⟩
      congr 1
      apply Vector.ext
      intro i hi
      have := hw i hi
      rw [Array.getElem?_eq_getElem (by omega)] at this
      simpa using this
  next h => simp [fail, h]

theorem slice_eq_error_iff {b : Bytes} {p n : Nat} {e : Error} :
    slice b p n = .error e ↔ b.size < p + n ∧ e = ⟨.outOfBounds n p b.size, []⟩ := by
  rw [slice]
  split
  next h => simp; omega
  next h => simp [fail, eq_comm]; omega

def u16 {n : Nat} (w : Vector UInt8 n) (i : Nat) (h : i + 2 ≤ n := by decide) : UInt16 :=
  word16 w[i] w[i + 1]

def u32 {n : Nat} (w : Vector UInt8 n) (i : Nat) (h : i + 4 ≤ n := by decide) : UInt32 :=
  word32 w[i] w[i + 1] w[i + 2] w[i + 3]

end DexListing
