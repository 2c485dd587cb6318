import DexListing.Proofs.Code.Units
import DexListing.Proofs.Rendering.Mismatch
import Mathlib.Algebra.Group.Nat.Defs
import Mathlib.Data.List.Forall2

namespace DexListing.Code

variable {b : Bytes} {offset : UInt32} {tables : Tables} {set : InstructionSet}

def Shows (set : InstructionSet) (tables : Tables) (u : CodeUnit) (text : String) : Prop :=
  match set.get? u.opcode with
  | some x => ∃ warning, x.render u (tables.operandSource x.kind u) = .ok ⟨text, warning⟩
  | none => text = s!"// Unknown opcode: 0x{hexByte u.opcode}"

def Renders (set : InstructionSet) (tables : Tables) (p : PlacedUnit) (l : Line) : Prop :=
  l.offset = UInt32.ofNat p.position ∧ Shows set tables p.unit l.text

theorem renders_of_line {p : PlacedUnit} {r : Resolved Line} (h : line set tables p = .ok r) :
    Renders set tables p r.value := by
  obtain ⟨s, hs, rfl⟩ := map_eq_ok_iff.1 h
  refine ⟨rfl, ?_⟩
  cases hx : set.get? p.unit.opcode with
  | some x =>
      rw [text, hx] at hs
      rw [Shows, hx]
      exact ⟨s.warning, hs⟩
  | none =>
      rw [text, hx] at hs
      rw [Shows, hx]
      cases hs
      rfl

theorem exists_lines (sound : set.Sound) (tables : Tables) (found : List PlacedUnit) :
    ∃ rs, found.mapM (line set tables) = .ok rs ∧
      List.Forall₂ (Renders set tables) found (rs.map Resolved.value) := by
  induction found with
  | nil => exact ⟨[], rfl, .nil⟩
  | cons p found ih =>
      obtain ⟨r, hr⟩ := exists_line sound tables p
      obtain ⟨rs, hrs, placed⟩ := ih
      refine ⟨r :: rs, ?_, .cons (renders_of_line hr) placed⟩
      rw [List.mapM_cons, hr, hrs]
      rfl

theorem walk_of_error {e : Error} (h : units b offset = .error e) :
    walk b offset tables set = .ok ⟨.error e, []⟩ := by
  rw [walk, h]

theorem walk_of_ok (sound : set.Sound) (tables : Tables) {found : List PlacedUnit}
    (h : units b offset = .ok found) :
    ∃ lines log, walk b offset tables set = .ok ⟨.ok lines, log⟩ ∧
      List.Forall₂ (Renders set tables) found lines := by
  obtain ⟨rs, hrs, placed⟩ := exists_lines sound tables found
  refine ⟨rs.map Resolved.value, rs.filterMap Resolved.warning, ?_, placed⟩
  rw [walk, h]
  change (found.mapM (line set tables)).map _ = _
  rw [hrs]
  rfl

structure Lists (b : Bytes) (offset : UInt32) (set : InstructionSet) (tables : Tables)
    (lines : List Line) : Prop where
  length : lines.length = unitCount b offset
  shows : ∀ k, (h : k < lines.length) → ∃ u : CodeUnit,
    b[offset.toNat + 16 + 2 * k]? = some u.opcode ∧
      b[offset.toNat + 16 + 2 * k + 1]? = some u.packed ∧ Shows set tables u lines[k].text
  narrowed : ∀ k, (h : k < lines.length) →
    lines[k].offset.toNat = (offset.toNat + 16 + 2 * k) % 2 ^ 32
  position : b.size ≤ 2 ^ 32 → ∀ k, (h : k < lines.length) →
    lines[k].offset.toNat = offset.toNat + 16 + 2 * k
  step : b.size ≤ 2 ^ 32 → ∀ k, (h : k + 1 < lines.length) →
    lines[k + 1].offset.toNat = lines[k].offset.toNat + 2

theorem lists_of_renders {lines : List Line}
    (hs : offset.toNat + 16 + 2 * unitCount b offset ≤ b.size)
    (h : List.Forall₂ (Renders set tables)
      (unitsAt b (offset.toNat + 16) (unitCount b offset)) lines) :
    Lists b offset set tables lines := by
  obtain ⟨hl, hp⟩ := List.forall₂_iff_get.1 h
  have length : lines.length = unitCount b offset := by simpa [unitsAt] using hl.symm
  have placed (k : Nat) (hk : k < lines.length) :
      Renders set tables ⟨offset.toNat + 16 + 2 * k, ⟨byteAt b (offset.toNat + 16 + 2 * k),
        byteAt b (offset.toNat + 16 + 2 * k + 1)⟩⟩ lines[k] := by
    simpa [unitsAt] using hp k (hl ▸ hk) hk
  have narrowed (k : Nat) (hk : k < lines.length) :
      lines[k].offset.toNat = (offset.toNat + 16 + 2 * k) % 2 ^ 32 := by
    rw [(placed k hk).1, UInt32.toNat_ofNat']
  have whole (small : b.size ≤ 2 ^ 32) (k : Nat) (hk : k < lines.length) :
      lines[k].offset.toNat = offset.toNat + 16 + 2 * k := by
    rw [narrowed k hk, Nat.mod_eq_of_lt (by omega)]
  refine ⟨length, fun k hk => ⟨_, ?_, ?_, (placed k hk).2⟩, narrowed, whole, fun small k hk => ?_⟩
  · exact getElem?_eq_byteAt (by omega)
  · exact getElem?_eq_byteAt (by omega)
  · rw [whole small (k + 1) hk, whole small k (by omega)]
    omega

structure Walked (b : Bytes) (offset : UInt32) (set : InstructionSet) (tables : Tables)
    (run : Run (List Line)) : Prop where
  empty : offset = 0 → run.outcome = .ok []
  ok_iff : offset ≠ 0 → ((∃ lines, run.outcome = .ok lines) ↔
    offset.toNat + 16 ≤ b.size ∧ offset.toNat + 16 + 2 * unitCount b offset ≤ b.size)
  lists : offset ≠ 0 → ∀ lines, run.outcome = .ok lines → Lists b offset set tables lines
  short : offset ≠ 0 → b.size < offset.toNat + 16 →
    ∃ e, run = ⟨.error e, []⟩ ∧ e.kind = .bufferBounds ∧
      e.report.contexts = [s!"code header at 0x{hex offset.toNat}"]
  cut : offset ≠ 0 → offset.toNat + 16 ≤ b.size →
    b.size < offset.toNat + 16 + 2 * unitCount b offset →
    ∃ e, run = ⟨.error e, []⟩ ∧ e.kind = .bufferBounds ∧
      e.report.contexts = [s!"instructions at 0x{hex (offset.toNat + 16)}"]

theorem walked_zero (log : List Record) : Walked b 0 set tables ⟨.ok [], log⟩ where
  empty _ := rfl
  ok_iff h := absurd rfl h
  lists h := absurd rfl h
  short h := absurd rfl h
  cut h := absurd rfl h

theorem walked_of_lists (h : offset ≠ 0)
    (hs : offset.toNat + 16 + 2 * unitCount b offset ≤ b.size) {lines : List Line}
    (hl : Lists b offset set tables lines) (log : List Record) :
    Walked b offset set tables ⟨.ok lines, log⟩ where
  empty h0 := absurd h0 h
  ok_iff _ := ⟨fun _ => ⟨by omega, hs⟩, fun _ => ⟨lines, rfl⟩⟩
  lists _ _ he := Except.ok.inj he ▸ hl
  short _ hp := by omega
  cut _ _ hc := by omega

theorem walked_of_short (h : offset ≠ 0) (hs : b.size < offset.toNat + 16) :
    Walked b offset set tables
      ⟨.error ⟨.outOfBounds 16 offset.toNat b.size, [.codeHeader offset]⟩, []⟩ where
  empty h0 := absurd h0 h
  ok_iff _ := ⟨fun ⟨_, he⟩ => (nomatch he), fun hf => by omega⟩
  lists _ _ he := nomatch he
  short _ _ := ⟨_, rfl, rfl, rfl⟩
  cut _ hp := by omega

theorem walked_of_cut (h : offset ≠ 0) (hp : offset.toNat + 16 ≤ b.size)
    (hs : b.size < offset.toNat + 16 + 2 * unitCount b offset) :
    Walked b offset set tables
      ⟨.error ⟨.outOfBounds (2 * unitCount b offset) (offset.toNat + 16) b.size,
        [.instructions (offset.toNat + 16)]⟩, []⟩ where
  empty h0 := absurd h0 h
  ok_iff _ := ⟨fun ⟨_, he⟩ => (nomatch he), fun hf => by omega⟩
  lists _ _ he := nomatch he
  short _ hq := by omega
  cut _ _ _ := ⟨_, rfl, rfl, rfl⟩

theorem exists_walked (sound : set.Sound) (b : Bytes) (offset : UInt32) (tables : Tables) :
    ∃ run, walk b offset tables set = .ok run ∧ Walked b offset set tables run := by
  by_cases h : offset = 0
  · subst h
    obtain ⟨lines, log, hw, rendered⟩ := walk_of_ok sound tables (units_zero b)
    obtain rfl := List.forall₂_nil_left_iff.1 rendered
    exact ⟨_, hw, walked_zero log⟩
  · by_cases hp : b.size < offset.toNat + 16
    · exact ⟨_, walk_of_error (units_of_short h hp), walked_of_short h hp⟩
    · by_cases hs : offset.toNat + 16 + 2 * unitCount b offset ≤ b.size
      · obtain ⟨lines, log, hw, rendered⟩ := walk_of_ok sound tables (units_of_le h hs)
        exact ⟨_, hw, walked_of_lists h hs (lists_of_renders hs rendered) log⟩
      · rw [Nat.not_lt] at hp
        rw [Nat.not_le] at hs
        exact ⟨_, walk_of_error (units_of_lt h hp hs), walked_of_cut h hp hs⟩

/-- Registered instructions may stand under any opcodes, and a later one in place of an earlier. -/
theorem walk_renders_every_unit {xs : List Instruction}
    (registered : ∀ y ∈ xs, ∃ x ∈ Dalvik.instructions, y = { x with opcode := y.opcode })
    (b : Bytes) (offset : UInt32) (tables : Tables) :
    ∃ run, walk b offset tables (.ofList xs) = .ok run ∧
      Walked b offset (.ofList xs) tables run := by
  have sound : ∀ y ∈ xs, y.Sound := by
    intro y hy
    obtain ⟨x, hx, hxy⟩ := registered y hy
    exact (Dalvik.sound_of_mem x hx).of_eq_except_opcode hxy
  exact exists_walked (InstructionSet.sound_ofList sound) b offset tables

theorem walk_renders_every_unit_moved :
    let x : Instruction := ⟨0x1A, "const-string", .strings, Dalvik.constantString, none⟩
    let set : InstructionSet := .ofList [{ x with opcode := 0xFF }]
    let b : Bytes := Array.replicate 16 0 ++ #[2, 0, 0, 0, 0xFF, 0x00, 0x1A, 0x05]
    let tables : Tables := ⟨⟨#["hi"], #[]⟩, #[], #[]⟩
    ∃ run lines, walk b 4 tables set = .ok run ∧ run.outcome = .ok lines ∧ lines.length = 2 ∧
      (∀ k, (h : k < lines.length) → lines[k].offset.toNat = 20 + 2 * k) ∧
      ∃ h : 1 < lines.length, lines[1].text = "// Unknown opcode: 0x1a" := by
  intro x set b tables
  have registered : ∀ y ∈ [{ x with opcode := 0xFF }],
      ∃ x ∈ Dalvik.instructions, y = { x with opcode := y.opcode } := by
    intro y hy
    exact ⟨x, by decide +kernel, by rw [List.mem_singleton.1 hy]⟩
  obtain ⟨run, hw, walked⟩ := walk_renders_every_unit registered b 4 tables
  obtain ⟨lines, hl⟩ := (walked.ok_iff (by decide)).2 ⟨by decide, by decide +kernel⟩
  have stream := walked.lists (by decide) lines hl
  have two : lines.length = 2 := stream.length.trans (by decide +kernel)
  have inside : 1 < lines.length := two ▸ (by decide)
  refine ⟨run, lines, hw, hl, two, stream.position (by decide), inside, ?_⟩
  obtain ⟨u, hu, -, shown⟩ := stream.shows 1 inside
  have byte : b[(4 : UInt32).toNat + 16 + 2 * 1]? = some 0x1A := by decide +kernel
  have free : set.get? 0x1A = none := by decide +kernel
  rw [Shows, Option.some.inj (hu.symm.trans byte), free] at shown
  exact shown.trans (by decide +kernel)

end DexListing.Code
