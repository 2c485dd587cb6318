import DexListing.Instruction.Set
import DexListing.Run

namespace DexListing

structure CodeHeader where
  registers : UInt16
  ins : UInt16
  outs : UInt16
  tries : UInt16
  debugInfo : UInt32
  units : UInt32
  deriving DecidableEq

def CodeHeader.parse (w : Vector UInt8 16) : CodeHeader where
  registers := u16 w 0
  ins := u16 w 2
  outs := u16 w 4
  tries := u16 w 6
  debugInfo := u32 w 8
  units := u32 w 12

def CodeHeader.reader : Reader CodeHeader :=
  Reader.record 16 fun w => .ok (.parse w)

structure Line where
  offset : UInt32
  text : String
  deriving DecidableEq

structure PlacedUnit where
  position : Nat
  unit : CodeUnit
  deriving DecidableEq

namespace Code

def unitAt (b : Bytes) (p : Nat) : Except Error PlacedUnit :=
  (slice b p 2).map fun w => ⟨p, ⟨w[0], w[1]⟩⟩

/-- The stream is checked as a whole before its first unit is read, and each unit once more. -/
def unitsFrom (b : Bytes) (start n : Nat) : Except Error (List PlacedUnit) := do
  ensure b start (2 * n)
  let found ← collect n fun k => unitAt b (start + 2 * k)
  return found.toList

def units (b : Bytes) (offset : UInt32) : Except Error (List PlacedUnit) :=
  if offset = 0 then .ok []
  else do
    let header ← within (.codeHeader offset) (CodeHeader.reader b offset.toNat).result
    let start := offset.toNat + 16
    within (.instructions start) (unitsFrom b start header.units.toNat)

def unknownText (opcode : UInt8) : String :=
  s!"// Unknown opcode: 0x{hexByte opcode}"

def text (set : InstructionSet) (tables : Tables) (p : PlacedUnit) :
    Except Mismatch (Resolved String) :=
  match set.get? p.unit.opcode with
  | some x => x.line tables p.unit
  | none => .ok ⟨unknownText p.unit.opcode, some (.unknownOpcode p.unit.opcode p.position)⟩

def line (set : InstructionSet) (tables : Tables) (p : PlacedUnit) :
    Except Mismatch (Resolved Line) :=
  (text set tables p).map (Resolved.map fun s => ⟨UInt32.ofNat p.position, s⟩)

/-- Each code unit gives one line, whatever the length of its instruction. A mismatch is no error
of the buffer: it ends the walk for good. -/
def walk (b : Bytes) (offset : UInt32) (tables : Tables) (set : InstructionSet) :
    Except Mismatch (Run (List Line)) :=
  match units b offset with
  | .error e => .ok ⟨.error e, []⟩
  | .ok found => (found.mapM (line set tables)).map fun lines =>
      ⟨.ok (lines.map Resolved.value), lines.filterMap Resolved.warning⟩

theorem mapM_eq_ok_map {α β ε : Type} {f : α → Except ε β} {g : α → β}
    (h : ∀ x, f x = .ok (g x)) (xs : List α) : xs.mapM f = .ok (xs.map g) := by
  induction xs with
  | nil => rfl
  | cons x xs ih => rw [List.mapM_cons, h x, ih]; rfl

theorem exists_line {set : InstructionSet} (h : set.Sound) (tables : Tables) (p : PlacedUnit) :
    ∃ r, line set tables p = .ok r := by
  have ht : ∃ r, text set tables p = .ok r := by
    unfold text
    split
    next x hx => exact (h _ x hx).exists_line tables p.unit
    next => exact ⟨_, rfl⟩
  obtain ⟨r, hr⟩ := ht
  exact ⟨_, by rw [line, hr]; rfl⟩

theorem walk_eq_ok {set : InstructionSet} {tables : Tables} {g : PlacedUnit → Resolved Line}
    (h : ∀ p, line set tables p = .ok (g p)) (b : Bytes) (offset : UInt32) :
    walk b offset tables set = .ok (do
      let found ← units b offset
      Run.tellAll ((found.map g).filterMap Resolved.warning)
      return (found.map g).map Resolved.value) := by
  rw [walk]
  cases units b offset with
  | error e => rfl
  | ok found =>
      rw [Run.bind_of_ok (Run.outcome_lift _), Run.bind_of_ok (Run.outcome_tellAll _)]
      simp [mapM_eq_ok_map h, Except.map]

theorem exists_walk {set : InstructionSet} (h : set.Sound) (b : Bytes) (offset : UInt32)
    (tables : Tables) : ∃ r, walk b offset tables set = .ok r :=
  ⟨_, walk_eq_ok (fun p => eq_ok_returned (exists_line h tables p)) b offset⟩

end Code

end DexListing
