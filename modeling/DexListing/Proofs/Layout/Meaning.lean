import DexListing.Layout
import DexListing.Listing

namespace DexListing.Layout

namespace Contents

structure Valid (c : Contents) : Prop where
  types : ∀ i ∈ c.types, i.toNat < c.strings.length
  fields : ∀ f ∈ c.fields, f.owner.toNat < c.types.length ∧ f.type.toNat < c.types.length ∧
    f.name.toNat < c.strings.length
  methods : ∀ m ∈ c.methods, m.owner.toNat < c.types.length ∧ m.name.toNat < c.strings.length
  classes : ∀ x ∈ c.classes, x.type.toNat < c.types.length ∧
    (∀ i ∈ x.superclass, i.toNat < c.types.length) ∧
    (∀ i ∈ x.sourceFile, i.toNat < c.strings.length)
  size : (encode c).length < UInt32.size

def header (c : Contents) : Header where
  magic := magic
  strings := c.extent .strings
  types := c.extent .types
  fields := c.extent .fields
  methods := c.extent .methods
  classes := c.extent .classes

def string (c : Contents) (i : UInt32) : String :=
  (c.strings[i.toNat]?.map StoredText.value).getD ""

def type (c : Contents) (i : UInt32) : String :=
  (c.types[i.toNat]?.map c.string).getD ""

def field (c : Contents) (f : FieldIds) : FieldRef :=
  ⟨c.type f.owner.toUInt32, c.type f.type.toUInt32, c.string f.name⟩

def method (c : Contents) (m : MethodIds) : MethodRef :=
  ⟨c.type m.owner.toUInt32, c.string m.name, m.proto⟩

def classDef (c : Contents) (x : ClassIds × Nat) : ClassDef where
  name := c.type x.1.type
  access := x.1.access
  superclass := x.1.superclass.map c.type
  sourceFile := x.1.sourceFile.map c.string
  dataOffset := UInt32.ofNat x.2

def tables (c : Contents) : Tables where
  strings := (c.strings.map StoredText.value).toArray
  types := (c.types.map c.string).toArray
  fields := (c.fields.map c.field).toArray
  methods := (c.methods.map c.method).toArray

def container (c : Contents) : Container :=
  ⟨c.header, c.tables, (c.placedClasses.map c.classDef).toArray⟩

@[simp] theorem strings_tables (c : Contents) :
    c.tables.strings = (c.strings.map StoredText.value).toArray := rfl

@[simp] theorem types_tables (c : Contents) : c.tables.types = (c.types.map c.string).toArray := rfl

@[simp] theorem fields_tables (c : Contents) : c.tables.fields = (c.fields.map c.field).toArray := rfl

@[simp] theorem methods_tables (c : Contents) :
    c.tables.methods = (c.methods.map c.method).toArray := rfl

@[simp] theorem tables_container (c : Contents) : c.container.tables = c.tables := rfl

@[simp] theorem classes_container (c : Contents) :
    c.container.classes = (c.placedClasses.map c.classDef).toArray := rfl

end Contents

def unitText (tables : Tables) (u : CodeUnit) : String :=
  match h : Dalvik.instructionSet.get? u.opcode with
  | some x => (returned _ ((Dalvik.sound_instructionSet _ x h).exists_line tables u)).value
  | none => Code.unknownText u.opcode

def unitAt (p k : Nat) : Nat :=
  p + 16 + 2 * k

def CodeItem.lines (item : CodeItem) (tables : Tables) (p : Nat) : List Line :=
  item.units.mapIdx fun k u => ⟨UInt32.ofNat (unitAt p k), unitText tables u⟩

namespace Contents

def classListing (c : Contents) (x : ClassIds × Nat) : ClassListing where
  name := c.type x.1.type
  superclass := x.1.superclass.map c.type
  sourceFile := x.1.sourceFile.map c.string
  lines := match x.1.code with
    | none => []
    | some item => item.lines c.tables x.2

def listing (c : Contents) : Listing :=
  ⟨some 35, c.placedClasses.map c.classListing⟩

end Contents

end DexListing.Layout
