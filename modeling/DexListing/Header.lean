import DexListing.Slice

namespace DexListing

structure Extent where
  size : UInt32
  offset : UInt32
  deriving DecidableEq

/-- An empty table is nowhere, so its offset is not looked at. -/
def Extent.check (x : Extent) (t : Table) (b : Bytes) : Except Error Unit :=
  if x.size = 0 then .ok ()
  else within (.table t x.offset) (ensure b x.offset.toNat (x.size.toNat * t.width))

structure Header where
  magic : Vector UInt8 8
  strings : Extent
  types : Extent
  fields : Extent
  methods : Extent
  classes : Extent
  deriving DecidableEq

namespace Header

def magicStart : Array UInt8 := #[0x64, 0x65, 0x78, 0x0A]

def parse (w : Vector UInt8 headerSize) : Header where
  magic := Vector.ofFn fun i => w[i.val]
  strings := ⟨u32 w 56, u32 w 60⟩
  types := ⟨u32 w 64, u32 w 68⟩
  fields := ⟨u32 w 80, u32 w 84⟩
  methods := ⟨u32 w 88, u32 w 92⟩
  classes := ⟨u32 w 96, u32 w 100⟩

def extent (h : Header) : Table → Extent
  | .strings => h.strings
  | .types => h.types
  | .fields => h.fields
  | .methods => h.methods
  | .classes => h.classes

def check (h : Header) (b : Bytes) : Except Error Unit := do
  h.strings.check .strings b
  h.types.check .types b
  h.fields.check .fields b
  h.methods.check .methods b
  h.classes.check .classes b

def read (b : Bytes) : Except Error Header :=
  if b.extract 0 4 ≠ magicStart then fail (.badMagic (b.extract 0 4).toList)
  else match slice b 0 headerSize with
    | .error _ => fail (.shortHeader b.size)
    | .ok w => (check (parse w) b).map fun _ => parse w

def decimal (x : UInt8) : Bool :=
  0x30 ≤ x && x ≤ 0x39

def version (h : Header) : Option Nat :=
  let x := h.magic[4]
  let y := h.magic[5]
  let z := h.magic[6]
  if decimal x && decimal y && decimal z then
    some ((x.toNat - 0x30) * 100 + (y.toNat - 0x30) * 10 + (z.toNat - 0x30))
  else none

end Header

end DexListing
