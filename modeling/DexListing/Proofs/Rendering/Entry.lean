import DexListing.Listing
import DexListing.Proofs.Rendering.Mismatch

namespace DexListing

def Tables.textsAt (t : Tables) (kind : OperandKind) (i : UInt8) : Option (List String) :=
  match kind with
  | .none => none
  | .rawValue => none
  | .strings => t.strings[i.toNat]?.map fun s => [s]
  | .types => t.types[i.toNat]?.map fun s => [s]
  | .fields => t.fields[i.toNat]?.map fun f => [f.name]
  | .methods => t.methods[i.toNat]?.map fun m => [m.owner, m.name]

theorem value_map_lookup {α β γ : Type} (t : Table) (pool : Array α) (i : UInt8) (view : α → β)
    (placeholder : β) (f : β → γ) :
    ((lookup t pool i view placeholder).map f).value =
      (pool[i.toNat]?.map fun x => f (view x)).getD (f placeholder) := by
  rw [lookup]
  cases pool[i.toNat]? <;> rfl

theorem value_lookup {α β : Type} (t : Table) (pool : Array α) (i : UInt8) (view : α → β)
    (placeholder : β) :
    (lookup t pool i view placeholder).value = (pool[i.toNat]?.map view).getD placeholder :=
  value_map_lookup t pool i view placeholder id

namespace Slot

/-- The texts of an entry that the slot shows: of a method the owner only if it is asked for. -/
def select (slot : Slot) (parts : List String) : List String :=
  match slot with
  | none => []
  | number _ => []
  | method => parts.drop 1
  | _ => parts

def placeholder (slot : Slot) (u : CodeUnit) : String :=
  match slot with
  | none => ""
  | number shift => toString (u.literal8 * Int.ofNat (1 <<< shift))
  | string => Table.strings.placeholder u.aa
  | type => Table.types.placeholder u.aa
  | field => Table.fields.placeholder u.aa
  | method => Table.methods.placeholder u.aa
  | ownedMethod => s!"{Table.types.placeholder u.aa}.{Table.methods.placeholder u.aa}"

def written (slot : Slot) (u : CodeUnit) (entry : Option (List String)) : String :=
  match entry with
  | some parts => ".".intercalate (slot.select parts)
  | Option.none => slot.placeholder u

theorem written_map {α : Type} (slot : Slot) (u : CodeUnit) (x : Option α) (f : α → List String) :
    slot.written u (x.map f) =
      (x.map fun a => ".".intercalate (slot.select (f a))).getD (slot.placeholder u) := by
  cases x <;> rfl

theorem value_fill {slot : Slot} {u : CodeUnit} {t : Tables} {r : Resolved String}
    (h : slot.fill u (t.operandSource slot.kind u) = .ok r) :
    r.value = slot.written u (t.textsAt slot.kind u.aa) := by
  cases slot with
  | none =>
      cases h
      rfl
  | number shift =>
      simp only [fill, kind, Tables.operandSource, OperandSource.value, Except.map,
        Except.ok.injEq] at h
      subst h
      rfl
  | string =>
      cases h
      simp [value_lookup, Tables.textsAt, kind, written_map, select, placeholder]
  | type =>
      cases h
      simp [value_lookup, Tables.textsAt, kind, written_map, select, placeholder]
  | field =>
      cases h
      simp [value_lookup, Tables.textsAt, kind, written_map, select, placeholder]
  | method =>
      cases h
      simp [value_map_lookup, Tables.textsAt, kind, written_map, select, placeholder]
  | ownedMethod =>
      cases h
      simp [value_map_lookup, Tables.textsAt, kind, written_map, select, placeholder, toString]

end Slot

def Instruction.written (x : Instruction) (u : CodeUnit) (entry : Option (List String)) : String :=
  x.annotate (renderPieces u x.template.before ++ x.template.slot.written u entry ++
    renderPieces u x.template.after)

theorem Instruction.Sound.value_line {x : Instruction} (h : x.Sound) {t : Tables} {u : CodeUnit}
    {r : Resolved String} (hr : x.line t u = .ok r) :
    r.value = x.written u (t.textsAt x.kind u.aa) := by
  obtain ⟨l, hl, rfl⟩ := map_eq_ok_iff.1 hr
  obtain ⟨operand, ho, rfl⟩ := map_eq_ok_iff.1 hl
  have hk : x.kind = x.template.slot.kind := h
  rw [hk] at ho ⊢
  simp only [Resolved.map, Slot.value_fill ho, written]

namespace Code

def written (set : InstructionSet) (t : Tables) (u : CodeUnit) : String :=
  match set.get? u.opcode with
  | some x => x.written u (t.textsAt x.kind u.aa)
  | none => unknownText u.opcode

theorem value_text {set : InstructionSet} (sound : set.Sound) {t : Tables} {p : PlacedUnit}
    {r : Resolved String} (h : text set t p = .ok r) : r.value = written set t p.unit := by
  rw [text] at h
  rw [written]
  cases hx : set.get? p.unit.opcode with
  | none =>
      rw [hx] at h
      cases h
      rfl
  | some x =>
      rw [hx] at h
      exact (sound _ x hx).value_line h

end Code

theorem Dalvik.text_line (t : Tables) (p : PlacedUnit) :
    (line t p).value.text = Code.written instructionSet t p.unit := by
  obtain ⟨r, hr, hl⟩ := map_eq_ok_iff.1 (line_eq_ok t p)
  rw [← hl]
  exact Code.value_text sound_instructionSet hr

end DexListing
