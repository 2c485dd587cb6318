import DexListing.Instruction.Operand

namespace DexListing

inductive Part where
  | a
  | b
  | aa
  deriving DecidableEq

def Part.value (u : CodeUnit) : Part → UInt8
  | .a => u.a
  | .b => u.b
  | .aa => u.aa

inductive Piece where
  | text (s : String)
  | register (part : Part)
  | label (part : Part)
  | literal
  deriving DecidableEq

instance : Coe String Piece := ⟨.text⟩

def Piece.render (u : CodeUnit) : Piece → String
  | .text s => s
  | .register part => s!"v{(part.value u).toNat}"
  | .label part => s!"label_{(part.value u).toNat}"
  | .literal => toString u.literal4

def renderPieces (u : CodeUnit) (pieces : List Piece) : String :=
  String.join (pieces.map (Piece.render u))

inductive Slot where
  | none
  | number (shift : Nat)
  | string
  | type
  | field
  | method
  | ownedMethod
  deriving DecidableEq

namespace Slot

def kind : Slot → OperandKind
  | none => .none
  | number _ => .rawValue
  | string => .strings
  | type => .types
  | field => .fields
  | method => .methods
  | ownedMethod => .methods

def fill (slot : Slot) (u : CodeUnit) (source : OperandSource) : Except Mismatch (Resolved String) :=
  match slot with
  | none => .ok ⟨"", Option.none⟩
  | number shift => source.value.map fun v => ⟨toString (v * Int.ofNat (1 <<< shift)), Option.none⟩
  | string => source.string u.aa
  | type => source.type u.aa
  | field => source.fieldName u.aa
  | method => (source.method u.aa).map (Resolved.map Prod.snd)
  | ownedMethod => (source.method u.aa).map (Resolved.map fun m => s!"{m.1}.{m.2}")

theorem fill_eq_ok_of_kind {slot : Slot} {u : CodeUnit} {source : OperandSource}
    (h : source.kind = slot.kind) : ∃ r, slot.fill u source = .ok r := by
  cases slot <;> cases source <;> simp_all [kind, OperandSource.kind] <;> exact ⟨_, rfl⟩

end Slot

structure Template where
  before : List Piece
  slot : Slot
  after : List Piece
  deriving DecidableEq

def Template.render (t : Template) (u : CodeUnit) (source : OperandSource) :
    Except Mismatch (Resolved String) :=
  (t.slot.fill u source).map
    (Resolved.map fun operand => renderPieces u t.before ++ operand ++ renderPieces u t.after)

end DexListing
