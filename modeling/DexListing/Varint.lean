import DexListing.Slice

namespace DexListing.Varint

theorem toNat_shiftRight_seven (v : UInt32) : (v >>> 7).toNat = v.toNat / 128 := by
  rw [UInt32.toNat_shiftRight]
  exact Nat.shiftRight_eq_div_pow _ 7

def encodeFrom (remaining : UInt32) : List UInt8 :=
  if remaining = 0 then []
  else
    let low := (remaining &&& 0x7F).toUInt8
    let rest := remaining >>> 7
    (if rest = 0 then low else low ||| 0x80) :: encodeFrom rest
termination_by remaining.toNat
decreasing_by
  have nonzero : remaining.toNat ≠ 0 := fun h => by
    exact absurd (UInt32.toNat_inj.1 h) ‹remaining ≠ 0›
  rw [toNat_shiftRight_seven]
  omega

def encode (v : UInt32) : List UInt8 :=
  if v = 0 then [0] else encodeFrom v

/-- The number of bytes is checked before the end of the buffer is. -/
def accumulate (b : Bytes) (start : Nat) :
    Nat → Nat → UInt32 → UInt32 → Except Error (UInt32 × Nat)
  | 0, _, _, _ => fail (.overlongVarint start)
  | left + 1, p, shift, value =>
    match b[p]? with
    | none => fail (.unfinishedVarint p)
    | some x =>
      let value := value ||| ((x &&& 0x7F).toUInt32 <<< shift)
      if x &&& 0x80 = 0 then .ok (value, p + 1)
      else accumulate b start left (p + 1) (shift + 7) value

def decode (b : Bytes) (p : Nat) : Except Error (UInt32 × Nat) :=
  accumulate b p 5 p 0 0

end DexListing.Varint
