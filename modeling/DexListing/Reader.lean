import DexListing.Varint

namespace DexListing

structure Step (α : Type) where
  result : Except Error α
  next : Nat

abbrev Reader (α : Type) := Bytes → Nat → Step α

namespace Reader

variable {α : Type}

/-- Takes `n` bytes or none: a record whose bytes are there is passed even if it does not parse. -/
def record (n : Nat) (parse : Vector UInt8 n → Except Error α) : Reader α := fun b p =>
  match slice b p n with
  | .ok w => ⟨parse w, p + n⟩
  | .error e => ⟨.error e, p⟩

theorem record_of_ok {n : Nat} {parse : Vector UInt8 n → Except Error α} {b : Bytes} {p : Nat}
    {w : Vector UInt8 n} (h : slice b p n = .ok w) : record n parse b p = ⟨parse w, p + n⟩ := by
  simp [record, h]

theorem record_of_error {n : Nat} {parse : Vector UInt8 n → Except Error α} {b : Bytes} {p : Nat}
    {e : Error} (h : slice b p n = .error e) : record n parse b p = ⟨.error e, p⟩ := by
  simp [record, h]

def word16 : Reader UInt16 :=
  record 2 fun w => .ok (u16 w 0)

def word32 : Reader UInt32 :=
  record 4 fun w => .ok (u32 w 0)

def bytes (n : Nat) : Reader (List UInt8) :=
  record n fun w => .ok w.toList

def varint : Reader UInt32 := fun b p =>
  match Varint.decode b p with
  | .ok (v, next) => ⟨.ok v, next⟩
  | .error e => ⟨.error e, p⟩

end Reader

end DexListing
