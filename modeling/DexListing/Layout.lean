import DexListing.Instruction.Operand
import DexListing.Text

namespace DexListing.Layout

def bytes16 (v : UInt16) : List UInt8 :=
  [UInt8.ofNat v.toNat, UInt8.ofNat (v.toNat / 256)]

def bytes32 (v : UInt32) : List UInt8 :=
  [UInt8.ofNat v.toNat, UInt8.ofNat (v.toNat / 256), UInt8.ofNat (v.toNat / 65536),
    UInt8.ofNat (v.toNat / 16777216)]

def zeros (n : Nat) : List UInt8 :=
  List.replicate n 0

inductive Encoding where
  | standard
  | modified
  deriving DecidableEq

structure StoredText where
  value : String
  encoding : Encoding
  deriving DecidableEq

def StoredText.payload (t : StoredText) : List UInt8 :=
  match t.encoding with
  | .standard => t.value.toByteArray.data.toList
  | .modified => Text.Modified.encode t.value.toList

def StoredText.bytes (t : StoredText) : List UInt8 :=
  Varint.encode (UInt32.ofNat t.payload.length) ++ t.payload

structure FieldIds where
  owner : UInt16
  type : UInt16
  name : UInt32
  deriving DecidableEq

def FieldIds.bytes (f : FieldIds) : List UInt8 :=
  bytes16 f.owner ++ bytes16 f.type ++ bytes32 f.name

structure MethodIds where
  owner : UInt16
  proto : UInt16
  name : UInt32
  deriving DecidableEq

def MethodIds.bytes (m : MethodIds) : List UInt8 :=
  bytes16 m.owner ++ bytes16 m.proto ++ bytes32 m.name

structure CodeItem where
  registers : UInt16
  ins : UInt16
  outs : UInt16
  tries : UInt16
  debugInfo : UInt32
  units : List CodeUnit
  deriving DecidableEq

def unitBytes (u : CodeUnit) : List UInt8 :=
  [u.opcode, u.packed]

def CodeItem.bytes (x : CodeItem) : List UInt8 :=
  bytes16 x.registers ++ bytes16 x.ins ++ bytes16 x.outs ++ bytes16 x.tries ++
    bytes32 x.debugInfo ++ bytes32 (UInt32.ofNat x.units.length) ++ x.units.flatMap unitBytes

structure ClassIds where
  type : UInt32
  access : AccessFlags
  superclass : Option UInt32
  sourceFile : Option UInt32
  code : Option CodeItem
  deriving DecidableEq

def ClassIds.bytes (x : ClassIds) (dataOffset : Nat) : List UInt8 :=
  bytes32 x.type ++ bytes32 x.access.bits ++ bytes32 (x.superclass.getD noIndex) ++ zeros 4 ++
    bytes32 (x.sourceFile.getD noIndex) ++ zeros 4 ++ bytes32 (UInt32.ofNat dataOffset) ++ zeros 4

structure Contents where
  strings : List StoredText
  types : List UInt32
  fields : List FieldIds
  methods : List MethodIds
  classes : List ClassIds
  deriving DecidableEq

def placeTexts (p : Nat) : List StoredText → List (StoredText × Nat)
  | [] => []
  | t :: ts => (t, p) :: placeTexts (p + t.bytes.length) ts

def codeStart (p : Nat) : Nat :=
  (p + 3) / 4 * 4

/-- Each class with the position of its code, zero for none, if the first may start at `p`. -/
def placeCode (p : Nat) : List ClassIds → List (ClassIds × Nat)
  | [] => []
  | x :: xs =>
    match x.code with
    | none => (x, 0) :: placeCode p xs
    | some item => (x, codeStart p) :: placeCode (codeStart p + item.bytes.length) xs

def codeArea (p : Nat) : List ClassIds → List UInt8
  | [] => []
  | x :: xs =>
    match x.code with
    | none => codeArea p xs
    | some item =>
        zeros (codeStart p - p) ++ item.bytes ++ codeArea (codeStart p + item.bytes.length) xs

namespace Contents

def count (c : Contents) : Table → Nat
  | .strings => c.strings.length
  | .types => c.types.length
  | .fields => c.fields.length
  | .methods => c.methods.length
  | .classes => c.classes.length

def typesAt (c : Contents) : Nat := headerSize + 4 * c.strings.length
def fieldsAt (c : Contents) : Nat := c.typesAt + 4 * c.types.length
def methodsAt (c : Contents) : Nat := c.fieldsAt + 8 * c.fields.length
def classesAt (c : Contents) : Nat := c.methodsAt + 8 * c.methods.length
def dataAt (c : Contents) : Nat := c.classesAt + 32 * c.classes.length

def tableAt (c : Contents) : Table → Nat
  | .strings => headerSize
  | .types => c.typesAt
  | .fields => c.fieldsAt
  | .methods => c.methodsAt
  | .classes => c.classesAt

def extent (c : Contents) (t : Table) : Extent :=
  ⟨UInt32.ofNat (c.count t), UInt32.ofNat (if c.count t = 0 then 0 else c.tableAt t)⟩

def stringData (c : Contents) : List UInt8 :=
  c.strings.flatMap StoredText.bytes

def codeAt (c : Contents) : Nat :=
  c.dataAt + c.stringData.length

def placedTexts (c : Contents) : List (StoredText × Nat) :=
  placeTexts c.dataAt c.strings

def placedClasses (c : Contents) : List (ClassIds × Nat) :=
  placeCode c.codeAt c.classes

end Contents

def magic : Vector UInt8 8 := #v[0x64, 0x65, 0x78, 0x0A, 0x30, 0x33, 0x35, 0x00]

def extentBytes (x : Extent) : List UInt8 :=
  bytes32 x.size ++ bytes32 x.offset

def headerBytes (c : Contents) : List UInt8 :=
  magic.toList ++ zeros 48 ++ extentBytes (c.extent .strings) ++ extentBytes (c.extent .types) ++
    zeros 8 ++ extentBytes (c.extent .fields) ++ extentBytes (c.extent .methods) ++
    extentBytes (c.extent .classes) ++ zeros 8

def encode (c : Contents) : List UInt8 :=
  headerBytes c ++ c.placedTexts.flatMap (fun x => bytes32 (UInt32.ofNat x.2)) ++
    c.types.flatMap bytes32 ++ c.fields.flatMap FieldIds.bytes ++
    c.methods.flatMap MethodIds.bytes ++ c.placedClasses.flatMap (fun x => x.1.bytes x.2) ++
    c.stringData ++ codeArea c.codeAt c.classes

end DexListing.Layout
