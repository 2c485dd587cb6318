import DexListing.Listing
import DexListing.Proofs.Outcome

namespace DexListing

theorem Slot.fill_eq_error_iff {slot : Slot} {u : CodeUnit} {source : OperandSource}
    {m : Mismatch} :
    slot.fill u source = .error m ↔
      slot.kind ≠ .none ∧ source.kind ≠ slot.kind ∧ m = ⟨slot.kind, source.kind⟩ := by
  cases slot <;> cases source <;>
    simp [fill, kind, OperandSource.kind, OperandSource.value, OperandSource.string,
      OperandSource.type, OperandSource.fieldName, OperandSource.method, Except.map, eq_comm]

namespace Instruction

variable {x : Instruction}

theorem Sound.render_eq_error_iff (h : x.Sound) {u : CodeUnit} {source : OperandSource}
    {m : Mismatch} :
    x.render u source = .error m ↔
      x.kind ≠ .none ∧ source.kind ≠ x.kind ∧ m = ⟨x.kind, source.kind⟩ := by
  have hk : x.kind = x.template.slot.kind := h
  rw [render, Template.render, map_eq_error_iff, map_eq_error_iff, Slot.fill_eq_error_iff, hk]

theorem Sound.of_eq_except_opcode {y : Instruction} (h : x.Sound)
    (hy : y = { x with opcode := y.opcode }) : y.Sound := by
  rw [hy]
  exact h

end Instruction

namespace Dalvik

theorem sound_of_get? {opcode : UInt8} {x : Instruction}
    (h : instructionSet.get? opcode = some x) : x.Sound :=
  sound_instructionSet opcode x h

/-- A registered instruction fails on the operand sources of another kind than its own and on no
others, naming both kinds. So no walk meets a mismatch, whatever opcodes the registered
instructions are moved to, and every body is the run of a walk that came to its end. -/
theorem mismatch_iff_other_kind :
    (∀ opcode x, instructionSet.get? opcode = some x → ∀ u source m,
      x.render u source = .error m ↔
        x.kind ≠ .none ∧ source.kind ≠ x.kind ∧ m = ⟨x.kind, source.kind⟩) ∧
      (∀ xs : List Instruction,
        (∀ y ∈ xs, ∃ opcode x, instructionSet.get? opcode = some x ∧
          y = { x with opcode := y.opcode }) →
        ∀ b offset tables, ∃ run, Code.walk b offset tables (.ofList xs) = .ok run) ∧
      (∀ b offset tables, ∃ run, Code.walk b offset tables instructionSet = .ok run) ∧
      ∀ (c : Container) (b : Bytes) (x : ClassDef), ∃ run,
        Code.walk b x.dataOffset c.tables instructionSet = .ok run ∧
          c.body b x =
            (Run.tell (.disassembling x.name x.dataOffset) >>= fun _ =>
              run.within (.body x.name)) := by
  refine ⟨?_, ?_, ?_, ?_⟩
  · intro opcode x hx u source m
    exact (sound_of_get? hx).render_eq_error_iff
  · intro xs copies b offset tables
    have sound : (InstructionSet.ofList xs).Sound := by
      refine InstructionSet.sound_ofList fun y hy => ?_
      obtain ⟨opcode, x, hx, hxy⟩ := copies y hy
      exact (sound_of_get? hx).of_eq_except_opcode hxy
    exact Code.exists_walk sound b offset tables
  · intro b offset tables
    exact ⟨_, walk_eq_ok b offset tables⟩
  · intro c b x
    exact ⟨_, walk_eq_ok b x.dataOffset c.tables, rfl⟩

theorem mismatch_iff_other_kind_moved :
    let x : Instruction := ⟨0x1A, "const-string", .strings, constantString, none⟩
    let b : Bytes := Array.replicate 16 0 ++ #[1, 0, 0, 0, 0xFF, 0x00]
    instructionSet.get? 0x1A = some x ∧
      x.render ⟨0x1A, 0⟩ (.types #["LMain;"]) = .error ⟨.strings, .types⟩ ∧
      ∃ run, Code.walk b 4 ⟨⟨#["hi"], #[]⟩, #[], #[]⟩ (.ofList [{ x with opcode := 0xFF }]) =
        .ok run := by
  intro x b
  have hx : instructionSet.get? 0x1A = some x := by decide +kernel
  refine ⟨hx, ?_, ?_⟩
  · exact (mismatch_iff_other_kind.1 _ x hx _ _ _).2 ⟨by decide, by decide, rfl⟩
  · refine mismatch_iff_other_kind.2.1 _ (fun y hy => ?_) b 4 _
    obtain rfl := List.mem_singleton.1 hy
    exact ⟨0x1A, x, hx, rfl⟩

end Dalvik

end DexListing
