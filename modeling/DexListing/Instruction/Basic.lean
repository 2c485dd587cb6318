import DexListing.Instruction.Template

namespace DexListing

structure Instruction where
  opcode : UInt8
  mnemonic : String
  kind : OperandKind
  template : Template
  note : Option String
  deriving DecidableEq

namespace Instruction

def Sound (x : Instruction) : Prop :=
  x.kind = x.template.slot.kind

instance (x : Instruction) : Decidable x.Sound :=
  inferInstanceAs (Decidable (_ = _))

def annotate (x : Instruction) (line : String) : String :=
  match x.note with
  | some note => line ++ "  // " ++ note
  | none => line

def render (x : Instruction) (u : CodeUnit) (source : OperandSource) :
    Except Mismatch (Resolved String) :=
  (x.template.render u source).map (Resolved.map x.annotate)

/-- The source is chosen by the registered kind alone. -/
def line (x : Instruction) (tables : Tables) (u : CodeUnit) : Except Mismatch (Resolved String) :=
  x.render u (tables.operandSource x.kind u)

variable {x : Instruction} {u : CodeUnit} {source : OperandSource}

theorem render_eq_ok_of_kind (h : source.kind = x.template.slot.kind) :
    ∃ r, x.render u source = .ok r := by
  obtain ⟨r, hr⟩ := Slot.fill_eq_ok_of_kind (u := u) h
  exact ⟨_, by rw [render, Template.render, hr]; rfl⟩

theorem Sound.exists_line (h : x.Sound) (tables : Tables) (u : CodeUnit) :
    ∃ r, x.line tables u = .ok r :=
  render_eq_ok_of_kind ((tables.kind_operandSource x.kind u).trans h)

def quoted (s : String) : String :=
  "\"" ++ s ++ "\""

def debugText (x : Instruction) : String :=
  let note := match x.note with
    | some note => "Some(" ++ quoted note ++ ")"
    | none => "None"
  s!"InstructionSpec \x7b opcode: 0x{hexByte x.opcode}, mnemonic: {quoted x.mnemonic}, " ++
    s!"context: {x.kind.name}, note: {note} \x7d"

end Instruction

end DexListing
