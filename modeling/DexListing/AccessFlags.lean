import DexListing.Numeral

namespace DexListing

structure AccessFlags where
  bits : UInt32
  deriving DecidableEq

namespace AccessFlags

def named : List (String × UInt32) :=
  [("PUBLIC", 0x1), ("PRIVATE", 0x2), ("PROTECTED", 0x4), ("STATIC", 0x8), ("FINAL", 0x10),
    ("INTERFACE", 0x200), ("ABSTRACT", 0x400), ("SYNTHETIC", 0x1000), ("ANNOTATION", 0x2000),
    ("ENUM", 0x4000)]

def names (f : AccessFlags) : List (String × UInt32) :=
  named.filter fun flag => f.bits &&& flag.2 ≠ 0

def clear (flags : List (String × UInt32)) (v : UInt32) : UInt32 :=
  flags.foldl (fun rest flag => rest &&& ~~~flag.2) v

def unnamed (f : AccessFlags) : UInt32 :=
  clear named f.bits

def number (v : UInt32) : String :=
  s!"0x{hex v.toNat}"

def parts (f : AccessFlags) : List String :=
  f.names.map Prod.fst ++ if f.unnamed = 0 then [] else [number f.unnamed]

def text (f : AccessFlags) : String :=
  " | ".intercalate f.parts

def debugText (f : AccessFlags) : String :=
  let inner := if f.bits = 0 then number 0 else f.text
  s!"AccessFlags({inner})"

end AccessFlags

end DexListing
