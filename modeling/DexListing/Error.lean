import DexListing.Numeral
import DexListing.Table

namespace DexListing

inductive ErrorKind where
  | dexFormat
  | bufferBounds
  | malformedVarint
  | unresolvedIndex
  deriving DecidableEq

def ErrorKind.name : ErrorKind → String
  | .dexFormat => "DexFormat"
  | .bufferBounds => "BufferBounds"
  | .malformedVarint => "MalformedVarint"
  | .unresolvedIndex => "UnresolvedIndex"

def ErrorKind.label : ErrorKind → String
  | .dexFormat => "DexFormatError"
  | .bufferBounds => "BufferBoundsError"
  | .malformedVarint => "MalformedVarint"
  | .unresolvedIndex => "UnresolvedIndexError"

inductive Fault where
  | badMagic (found : List UInt8)
  | shortHeader (length : Nat)
  | outOfBounds (count position length : Nat)
  | unfinishedVarint (position : Nat)
  | overlongVarint (start : Nat)
  | unresolved (t : Table) (index : UInt32) (length : Nat)
  deriving DecidableEq

def Fault.kind : Fault → ErrorKind
  | .badMagic _ => .dexFormat
  | .shortHeader _ => .bufferBounds
  | .outOfBounds _ _ _ => .bufferBounds
  | .unfinishedVarint _ => .bufferBounds
  | .overlongVarint _ => .malformedVarint
  | .unresolved _ _ _ => .unresolvedIndex

def Fault.message : Fault → String
  | .badMagic found => s!"invalid magic value {hexList found}"
  | .shortHeader length => s!"not enough bytes for header ({length} < {headerSize})"
  | .outOfBounds count position length =>
      s!"read of {count} bytes at 0x{hex position} exceeds buffer of 0x{hex length} bytes"
  | .unfinishedVarint position =>
      s!"unexpected end of stream reading uleb128 at 0x{hex position}"
  | .overlongVarint start => s!"uleb128 at 0x{hex start} exceeds 5 bytes"
  | .unresolved t index length =>
      s!"{t.noun} index {index.toNat} out of range ({t.plural}.len={length})"

inductive Place where
  | table (t : Table) (offset : UInt32)
  | entry (t : Table) (index : Nat)
  | stringData (offset : UInt32)
  | className
  | superclass
  | sourceFile
  | codeHeader (offset : UInt32)
  | instructions (position : Nat)
  | body (name : String)
  deriving DecidableEq

def Place.text : Place → String
  | .table t offset => s!"{t.sectionName} table at 0x{hex offset.toNat}"
  | .entry t index => s!"{t.entryName} #{index}"
  | .stringData offset => s!"string data at 0x{hex offset.toNat}"
  | .className => "class"
  | .superclass => "superclass"
  | .sourceFile => "source file"
  | .codeHeader offset => s!"code header at 0x{hex offset.toNat}"
  | .instructions position => s!"instructions at 0x{hex position}"
  | .body name => s!"while disassembling {name}"

structure Error where
  fault : Fault
  places : List Place
  deriving DecidableEq

def Error.within (place : Place) (e : Error) : Error :=
  ⟨e.fault, e.places ++ [place]⟩

structure Report where
  kind : ErrorKind
  message : String
  contexts : List String
  deriving DecidableEq

def Report.text (r : Report) : String :=
  let contexts := match r.contexts with
    | [] => ""
    | inner :: outer => " for " ++ inner ++ String.join (outer.map (" of " ++ ·))
  s!"{r.kind.label}: {r.message}{contexts}"

def Error.kind (e : Error) : ErrorKind :=
  e.fault.kind

def Error.report (e : Error) : Report :=
  ⟨e.kind, e.fault.message, e.places.map Place.text⟩

def Error.text (e : Error) : String :=
  e.report.text

def fail {α : Type} (fault : Fault) : Except Error α :=
  .error ⟨fault, []⟩

def within {α : Type} (place : Place) : Except Error α → Except Error α
  | .ok a => .ok a
  | .error e => .error (e.within place)

theorem within_eq_ok_iff {α : Type} {place : Place} {r : Except Error α} {a : α} :
    within place r = .ok a ↔ r = .ok a := by
  cases r <;> simp [within]

theorem within_eq_error_iff {α : Type} {place : Place} {r : Except Error α} {e : Error} :
    within place r = .error e ↔ ∃ d, r = .error d ∧ d.within place = e := by
  cases r <;> simp [within]

def returned {ε α : Type} : (x : Except ε α) → (∃ a, x = .ok a) → α
  | .ok a, _ => a
  | .error _, h => absurd h (by simp)

theorem eq_ok_returned {ε α : Type} {x : Except ε α} (h : ∃ a, x = .ok a) :
    x = .ok (returned x h) := by
  obtain ⟨a, rfl⟩ := h
  rfl

end DexListing
