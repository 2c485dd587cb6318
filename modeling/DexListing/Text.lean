import DexListing.Varint
import DexListing.Text.Modified
import DexListing.Text.Lossy

namespace DexListing

structure Text where
  value : String
  lossy : Bool
  deriving DecidableEq

namespace Text

def wellFormed? (bytes : List UInt8) : Option String :=
  match String.fromUTF8? bytes.toByteArray with
  | some s => some s
  | none => (Modified.decode bytes).map String.ofList

def replaced (bytes : List UInt8) : Text :=
  match String.fromUTF8? bytes.toByteArray with
  | some s => ⟨s, false⟩
  | none => ⟨String.ofList (Lossy.decode bytes), true⟩

def decode (bytes : List UInt8) : Text :=
  match wellFormed? bytes with
  | some s => ⟨s, false⟩
  | none => replaced bytes

def read (b : Bytes) (p : Nat) : Except Error Text :=
  match Varint.decode b p with
  | .error e => .error e
  | .ok (count, start) => (slice b start count.toNat).map fun w => decode w.toList

end Text

end DexListing
