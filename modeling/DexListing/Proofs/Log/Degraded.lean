import DexListing.Proofs.Code.Walk
import DexListing.Proofs.Rendering.Entry

namespace DexListing

theorem forall₂_filterMap {α β : Type} {f : α → Option β} {p : α → Bool} {R : α → β → Prop}
    (skips : ∀ x, p x = false → f x = none)
    (keeps : ∀ x, p x = true → ∃ y, f x = some y ∧ R x y) (xs : List α) :
    List.Forall₂ R (xs.filter p) (xs.filterMap f) := by
  induction xs with
  | nil => exact .nil
  | cons x xs ih =>
      cases hp : p x with
      | false =>
          rw [List.filter_cons_of_neg (by simp [hp]), List.filterMap_cons_none (skips x hp)]
          exact ih
      | true =>
          obtain ⟨y, hy, hr⟩ := keeps x hp
          rw [List.filter_cons_of_pos hp, List.filterMap_cons_some hy]
          exact .cons hr ih

namespace Tables

variable (t : Tables)

def operandTable : OperandKind → Option (Table × Nat)
  | .none => none
  | .rawValue => none
  | .strings => some (.strings, t.strings.size)
  | .types => some (.types, t.types.size)
  | .fields => some (.fields, t.fields.size)
  | .methods => some (.methods, t.methods.size)

def lacks (kind : OperandKind) (i : UInt8) : Bool :=
  (t.operandTable kind).any fun x => x.2 ≤ i.toNat

def missing (kind : OperandKind) (i : UInt8) : Option Record :=
  (t.operandTable kind).bind fun x =>
    if x.2 ≤ i.toNat then some (.missingOperand x.1 i x.2) else none

variable {t} {kind : OperandKind} {i : UInt8}

theorem missing_of_not_lacks (h : t.lacks kind i = false) : t.missing kind i = none := by
  rw [missing]
  rw [lacks] at h
  cases hx : t.operandTable kind with
  | none => rfl
  | some x =>
      rw [hx] at h
      exact if_neg (by simpa using h)

theorem exists_operandTable_of_lacks (h : t.lacks kind i = true) :
    ∃ table n, t.operandTable kind = some (table, n) ∧ n ≤ i.toNat ∧
      t.missing kind i = some (.missingOperand table i n) := by
  rw [lacks] at h
  cases hx : t.operandTable kind with
  | none =>
      rw [hx] at h
      cases h
  | some x =>
      rw [hx] at h
      have hn : x.2 ≤ i.toNat := by simpa using h
      refine ⟨x.1, x.2, rfl, hn, ?_⟩
      rw [missing, hx]
      exact if_pos hn

theorem textsAt_eq_none {table : Table} {n : Nat} (h : t.operandTable kind = some (table, n))
    (hn : n ≤ i.toNat) : t.textsAt kind i = none := by
  cases kind with
  | none => rfl
  | rawValue => rfl
  | _ =>
      cases h
      simp [textsAt, hn]

end Tables

theorem warning_lookup {α β : Type} (t : Table) (pool : Array α) (i : UInt8) (view : α → β)
    (placeholder : β) :
    (lookup t pool i view placeholder).warning =
      if pool.size ≤ i.toNat then some (.missingOperand t i pool.size) else none := by
  rw [lookup]
  cases hx : pool[i.toNat]? with
  | none => rw [if_pos (Array.getElem?_eq_none_iff.1 hx)]
  | some x =>
      obtain ⟨hi, _⟩ := Array.getElem?_eq_some_iff.1 hx
      rw [if_neg (Nat.not_le.2 hi)]

namespace Slot

variable {slot : Slot} {u : CodeUnit} {t : Tables}

theorem warning_fill {r : Resolved String}
    (h : slot.fill u (t.operandSource slot.kind u) = .ok r) :
    r.warning = t.missing slot.kind u.aa := by
  cases slot with
  | number shift =>
      simp only [fill, kind, Tables.operandSource, OperandSource.value, Except.map,
        Except.ok.injEq] at h
      subst h
      rfl
  | none =>
      cases h
      rfl
  | _ =>
      cases h
      simp only [Resolved.map, warning_lookup]
      rfl

theorem placeholder_eq {table : Table} {n : Nat}
    (h : t.operandTable slot.kind = some (table, n)) :
    slot.placeholder u =
      if slot = .ownedMethod then s!"type@{u.aa.toNat}.method@{u.aa.toNat}"
      else s!"{table.noun}@{u.aa.toNat}" := by
  cases slot with
  | ownedMethod =>
      have typed : "type@" = "type" ++ "@" := rfl
      have joined : ".method@" = "." ++ ("method" ++ "@") := rfl
      rw [if_pos rfl, typed, joined]
      simp only [placeholder, Table.placeholder, Table.noun, toString, String.append_assoc]
  | _ => cases h <;> rfl

end Slot

namespace Instruction

def Static (x : Instruction) : Prop :=
  x.mnemonic = "invoke-static" ∨ x.mnemonic = "invoke-static/range"

instance (x : Instruction) : Decidable x.Static :=
  inferInstanceAs (Decidable (_ ∨ _))

def showing (x : Instruction) (u : CodeUnit) (operand : String) : String :=
  x.annotate (renderPieces u x.template.before ++ operand ++ renderPieces u x.template.after)

theorem Sound.warning_line {x : Instruction} (sound : x.Sound) {t : Tables} {u : CodeUnit}
    {r : Resolved String} (h : x.line t u = .ok r) : r.warning = t.missing x.kind u.aa := by
  obtain ⟨l, hl, rfl⟩ := map_eq_ok_iff.1 h
  obtain ⟨operand, ho, rfl⟩ := map_eq_ok_iff.1 hl
  have hk : x.kind = x.template.slot.kind := sound
  rw [hk] at ho ⊢
  change operand.warning = _
  exact Slot.warning_fill ho

end Instruction

def Code.degraded (set : InstructionSet) (t : Tables) (u : CodeUnit) : Bool :=
  match set.get? u.opcode with
  | none => true
  | some x => t.lacks x.kind u.aa

namespace Dalvik

theorem slot_eq_ownedMethod_iff :
    ∀ x ∈ instructions, x.template.slot = .ownedMethod ↔ x.Static := by
  decide +kernel

inductive Noted (t : Tables) (p : PlacedUnit) (l : Line) : Record → Prop where
  | unregistered {r : Record} : instructionSet.get? p.unit.opcode = none →
      r.text = s!"[code] unknown opcode 0x{hexByte p.unit.opcode} at 0x{hex p.position}" →
      l.text = s!"// Unknown opcode: 0x{hexByte p.unit.opcode}" → Noted t p l r
  | missing {r : Record} {x : Instruction} {table : Table} {n : Nat} :
      instructionSet.get? p.unit.opcode = some x → t.operandTable x.kind = some (table, n) →
      n ≤ p.unit.aa.toNat →
      r.text =
        s!"[render] {table.noun} index {p.unit.aa.toNat} OOB ({table.plural}.len={n})" →
      l.text = x.showing p.unit
        (if x.Static then s!"type@{p.unit.aa.toNat}.method@{p.unit.aa.toNat}"
          else s!"{table.noun}@{p.unit.aa.toNat}") → Noted t p l r

variable {t : Tables} {p : PlacedUnit}

theorem warning_line (t : Tables) (p : PlacedUnit) :
    (line t p).warning =
      match instructionSet.get? p.unit.opcode with
      | none => some (.unknownOpcode p.unit.opcode p.position)
      | some x => t.missing x.kind p.unit.aa := by
  obtain ⟨r, hr, hl⟩ := map_eq_ok_iff.1 (line_eq_ok t p)
  rw [← hl]
  rw [Code.text] at hr
  cases hx : instructionSet.get? p.unit.opcode with
  | none =>
      rw [hx] at hr
      cases hr
      rfl
  | some x =>
      rw [hx] at hr
      exact (sound_of_get? hx).warning_line hr

theorem warning_line_of_not_degraded (h : Code.degraded instructionSet t p.unit = false) :
    (line t p).warning = none := by
  rw [warning_line]
  rw [Code.degraded] at h
  cases hx : instructionSet.get? p.unit.opcode with
  | none =>
      rw [hx] at h
      cases h
  | some x =>
      rw [hx] at h
      exact Tables.missing_of_not_lacks h

theorem exists_noted_of_degraded (h : Code.degraded instructionSet t p.unit = true) :
    ∃ r, (line t p).warning = some r ∧ Noted t p (line t p).value r ∧ r.level = .warn := by
  rw [Code.degraded] at h
  cases hx : instructionSet.get? p.unit.opcode with
  | none =>
      have text : (line t p).value.text = Code.unknownText p.unit.opcode := by
        rw [text_line, Code.written, hx]
      have warning : (line t p).warning =
          some (.unknownOpcode p.unit.opcode p.position) := by
        rw [warning_line, hx]
      exact ⟨_, warning, .unregistered hx rfl text, rfl⟩
  | some x =>
      rw [hx] at h
      obtain ⟨table, n, operand, hn, missing⟩ := Tables.exists_operandTable_of_lacks h
      have warning : (line t p).warning = some (.missingOperand table p.unit.aa n) := by
        rw [warning_line, hx]
        exact missing
      have kind : x.kind = x.template.slot.kind := sound_of_get? hx
      have placeholder := Slot.placeholder_eq (u := p.unit) (kind ▸ operand)
      have text : (line t p).value.text =
          x.showing p.unit (x.template.slot.placeholder p.unit) := by
        rw [text_line, Code.written, hx]
        simp only [Instruction.written, Tables.textsAt_eq_none operand hn]
        rfl
      simp only [placeholder, slot_eq_ownedMethod_iff x (InstructionSet.mem_of_get?_ofList hx)]
        at text
      exact ⟨_, warning, .missing hx operand hn rfl text, rfl⟩

/-- The records of a listing are those of its degraded units, one for each and in their order; a
listing that fails has no records. -/
theorem records_are_of_degraded_units (b : Bytes) (offset : UInt32) (t : Tables) :
    ∃ run, Code.walk b offset t instructionSet = .ok run ∧
      (∀ lines, run.outcome = .ok lines →
        lines.length = (Code.unitsOf b offset).length ∧
          List.Forall₂ (fun x r => Noted t x.1 x.2 r ∧ r.level = .warn)
            (((Code.unitsOf b offset).zip lines).filter fun x =>
              Code.degraded instructionSet t x.1.unit)
            run.log) ∧
      ∀ e, run.outcome = .error e → run.log = [] := by
  refine ⟨listing b offset t, walk_eq_ok b offset t, ?_⟩
  cases h : Code.units b offset with
  | error e =>
      rw [listing_of_error h]
      exact ⟨fun lines hl => (nomatch hl), fun e _ => rfl⟩
  | ok found =>
      rw [listing_of_ok h]
      refine ⟨fun lines hl => ?_, fun e he => nomatch he⟩
      obtain rfl := Except.ok.inj hl
      obtain rfl := Code.eq_unitsOf h
      refine ⟨List.length_map _, ?_⟩
      have placed := List.zip_map' (f := id) (g := fun p => (line t p).value)
        (l := Code.unitsOf b offset)
      rw [List.map_id] at placed
      rw [placed, List.filter_map, List.forall₂_map_left_iff]
      exact forall₂_filterMap (fun p hp => warning_line_of_not_degraded hp)
        (fun p hp => exists_noted_of_degraded hp) _

theorem records_of_degraded_sample :
    let b : Bytes := Array.replicate 16 0 ++
      #[5, 0, 0, 0, 0xFF, 0x00, 0x1A, 0x05, 0x77, 0x03, 0x1A, 0x00, 0x0E, 0x00]
    let t : Tables := ⟨⟨#["hi"], #[]⟩, #[], #[]⟩
    (∃ run lines, Code.walk b 4 t instructionSet = .ok run ∧ run.outcome = .ok lines ∧
      lines.map Line.text = ["// Unknown opcode: 0xff", "v5 = \"string@5\";",
        "type@3.method@3(...);  // range", "v0 = \"hi\";", "return;"] ∧
      List.Forall₂ (fun x r => Noted t x.1 x.2 r ∧ r.level = .warn)
        (((Code.unitsOf b 4).zip lines).filter fun x => Code.degraded instructionSet t x.1.unit)
        run.log ∧
      run.log.map Record.text = ["[code] unknown opcode 0xff at 0x14",
        "[render] string index 5 OOB (strings.len=1)",
        "[render] method index 3 OOB (methods.len=0)"]) ∧
      ∃ run e, Code.walk b 30 t instructionSet = .ok run ∧ run.outcome = .error e ∧
        run.log = [] := by
  intro b t
  obtain ⟨run, walked, listed, -⟩ := records_are_of_degraded_units b 4 t
  obtain ⟨short, failed, -, silent⟩ := records_are_of_degraded_units b 30 t
  have run_eq : run = listing b 4 t := by
    rw [walk_eq_ok, Except.ok.injEq] at walked
    exact walked.symm
  have short_eq : short = listing b 30 t := by
    rw [walk_eq_ok, Except.ok.injEq] at failed
    exact failed.symm
  have whole : Code.units b 4 = .ok (Code.unitsOf b 4) :=
    Code.units_of_le (by decide) (by decide +kernel)
  have cut : Code.units b 30 = .error ⟨.outOfBounds 16 30 b.size, [.codeHeader 30]⟩ :=
    Code.units_of_short (by decide) (by decide +kernel)
  rw [listing_of_ok whole] at run_eq
  rw [listing_of_error cut] at short_eq
  have outcome := congrArg Run.outcome run_eq
  have error := congrArg Run.outcome short_eq
  refine ⟨⟨_, _, walked, outcome, ?_, (listed _ outcome).2, ?_⟩, _, _, failed, error, silent _ error⟩
  · decide +kernel
  · rw [run_eq]
    decide +kernel

end Dalvik

end DexListing
