import DexListing.Code

namespace DexListing

/-- Bytes in memory: the end of them, and so every place within them, is a machine word. -/
structure Buffer where
  bytes : Bytes
  fits : bytes.size < UInt64.size

/-- A reader that moves a position of its own, and leaves it where it failed. -/
abbrev Cursor :=
  ReaderT Buffer (ExceptT Error (StateM UInt64))

def checkedAdd (p n : UInt64) : Option UInt64 :=
  if p.toNat + n.toNat < UInt64.size then some (p + n) else none

namespace Cursor

variable {α : Type}

def run (c : Cursor α) (b : Buffer) (p : UInt64) : Except Error α × UInt64 :=
  StateT.run (ExceptT.run (ReaderT.run c b)) p

def ensure (n : UInt64) : Cursor Unit := do
  let b ← read
  let p ← get
  unless (checkedAdd p n).any fun stop => stop.toNat ≤ b.bytes.size do
    ofExcept (fail (.outOfBounds n.toNat p.toNat b.bytes.size))

def take (n : UInt64) : Cursor (Vector UInt8 n.toNat) := do
  ensure n
  let b ← read
  let p ← get
  let w ← ofExcept (slice b.bytes p.toNat n.toNat)
  set (p + n)
  return w

/-- The whole record is passed before anything in it is resolved. -/
def record (n : UInt64) (parse : Vector UInt8 n.toNat → Except Error α) : Cursor α := do
  let w ← take n
  ofExcept (parse w)

def word16 : Cursor UInt16 :=
  record 2 fun w => .ok (u16 w 0)

def word32 : Cursor UInt32 :=
  record 4 fun w => .ok (u32 w 0)

def bytes (n : UInt64) : Cursor (List UInt8) :=
  record n fun w => .ok w.toList

def accumulate (b : Buffer) (start : UInt64) :
    Nat → UInt64 → UInt32 → UInt32 → Except Error (UInt32 × UInt64)
  | 0, _, _, _ => fail (.overlongVarint start.toNat)
  | left + 1, p, shift, value =>
    match b.bytes[p.toNat]? with
    | none => fail (.unfinishedVarint p.toNat)
    | some x =>
      let value := value ||| ((x &&& 0x7F).toUInt32 <<< shift)
      if x &&& 0x80 = 0 then .ok (value, p + 1)
      else accumulate b start left (p + 1) (shift + 7) value

/-- The bytes are passed only once the last of them is found. -/
def varint : Cursor UInt32 := do
  let b ← read
  let p ← get
  let (v, next) ← ofExcept (accumulate b p 5 p 0 0)
  set next
  return v

end Cursor

def CodeHeader.cursor : Cursor CodeHeader := do
  Cursor.ensure 16
  let registers ← Cursor.word16
  let ins ← Cursor.word16
  let outs ← Cursor.word16
  let tries ← Cursor.word16
  let debugInfo ← Cursor.word32
  let units ← Cursor.word32
  return ⟨registers, ins, outs, tries, debugInfo, units⟩

def FieldRef.cursor (pools : Pools) : Cursor FieldRef :=
  Cursor.record 8 (FieldRef.parse pools)

def MethodRef.cursor (pools : Pools) : Cursor MethodRef :=
  Cursor.record 8 (MethodRef.parse pools)

def ClassDef.cursor (pools : Pools) : Cursor ClassDef :=
  Cursor.record 32 (ClassDef.parse pools)

end DexListing
