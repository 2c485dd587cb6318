import DexListing.Proofs.Rendering.Entry

namespace DexListing

variable {t t' : Tables} {u : CodeUnit}

theorem Slot.map_value_fill_congr {kind : OperandKind} (h : t'.textsAt kind u.aa = t.textsAt kind u.aa)
    (slot : Slot) :
    (slot.fill u (t'.operandSource kind u)).map Resolved.value =
      (slot.fill u (t.operandSource kind u)).map Resolved.value := by
  by_cases hk : kind = slot.kind
  · subst hk
    have filled (t : Tables) : ∃ r, slot.fill u (t.operandSource slot.kind u) = .ok r :=
      fill_eq_ok_of_kind (t.kind_operandSource slot.kind u)
    obtain ⟨r, hr⟩ := filled t
    obtain ⟨r', hr'⟩ := filled t'
    rw [hr, hr', Except.map, Except.map, value_fill hr, value_fill hr', h]
  · by_cases hn : slot.kind = .none
    · -- a slot without an operand takes every source
      cases slot with
      | none => rfl
      | _ => cases hn
    · have fails (t : Tables) : slot.fill u (t.operandSource kind u) = .error ⟨slot.kind, kind⟩ :=
        fill_eq_error_iff.2 ⟨hn, by rwa [t.kind_operandSource], by rw [t.kind_operandSource]⟩
      rw [fails, fails]

namespace Instruction

variable {x : Instruction}

theorem map_value_line (x : Instruction) (t : Tables) (u : CodeUnit) :
    (x.line t u).map Resolved.value =
      ((x.template.slot.fill u (t.operandSource x.kind u)).map Resolved.value).map fun operand =>
        x.annotate (renderPieces u x.template.before ++ operand ++
          renderPieces u x.template.after) := by
  rw [line, render, Template.render]
  cases x.template.slot.fill u (t.operandSource x.kind u) <;> rfl

theorem map_value_line_congr (h : t'.textsAt x.kind u.aa = t.textsAt x.kind u.aa) :
    (x.line t' u).map Resolved.value = (x.line t u).map Resolved.value := by
  rw [map_value_line, map_value_line, Slot.map_value_fill_congr h]

theorem Sound.same_line (sound : x.Sound) (h : t'.textsAt x.kind u.aa = t.textsAt x.kind u.aa) :
    ∃ r r', x.line t u = .ok r ∧ x.line t' u = .ok r' ∧ r'.value = r.value := by
  obtain ⟨r, hr⟩ := sound.exists_line t u
  obtain ⟨r', hr'⟩ := sound.exists_line t' u
  have hv := map_value_line_congr h
  rw [hr, hr'] at hv
  exact ⟨r, r', hr, hr', Except.ok.inj hv⟩

end Instruction

theorem mapM_map_congr {α β γ ε : Type} {f f' : α → Except ε β} {g : β → γ} {xs : List α}
    (h : ∀ x ∈ xs, (f' x).map g = (f x).map g) :
    (xs.mapM f').map (List.map g) = (xs.mapM f).map (List.map g) := by
  -- The results agree only after the map, so the map is taken inside one step first.
  have cons (f : α → Except ε β) (x : α) (xs : List α) :
      ((x :: xs).mapM f).map (List.map g) = do
        let y ← (f x).map g
        let ys ← (xs.mapM f).map (List.map g)
        return y :: ys := by
    rw [List.mapM_cons]
    cases f x with
    | error e => rfl
    | ok y => cases xs.mapM f <;> rfl
  induction xs with
  | nil => rfl
  | cons x xs ih =>
      rw [cons, cons, h x (by simp), ih fun y hy => h y (by simp [hy])]

namespace Code

theorem map_value_line_congr {set : InstructionSet} {p : PlacedUnit}
    (h : ∀ kind, t'.textsAt kind p.unit.aa = t.textsAt kind p.unit.aa) :
    (line set t' p).map Resolved.value = (line set t p).map Resolved.value := by
  have value (t : Tables) : (line set t p).map Resolved.value =
      ((text set t p).map Resolved.value).map fun s => ⟨UInt32.ofNat p.position, s⟩ := by
    rw [line]
    cases text set t p <;> rfl
  have texts : (text set t' p).map Resolved.value = (text set t p).map Resolved.value := by
    rw [text, text]
    cases set.get? p.unit.opcode with
    | none => rfl
    | some x => exact Instruction.map_value_line_congr (h x.kind)
  rw [value, value, texts]

theorem map_outcome_walk (b : Bytes) (offset : UInt32) (t : Tables) (set : InstructionSet) :
    (walk b offset t set).map Run.outcome =
      match units b offset with
      | .error e => .ok (.error e)
      | .ok found => ((found.mapM (line set t)).map (List.map Resolved.value)).map .ok := by
  rw [walk]
  cases units b offset with
  | error e => rfl
  | ok found =>
      simp only
      cases found.mapM (line set t) <;> rfl

theorem map_outcome_walk_congr (h : ∀ kind i, t'.textsAt kind i = t.textsAt kind i) (b : Bytes)
    (offset : UInt32) (set : InstructionSet) :
    (walk b offset t' set).map Run.outcome = (walk b offset t set).map Run.outcome := by
  rw [map_outcome_walk, map_outcome_walk]
  cases units b offset with
  | error e => rfl
  | ok found =>
      simp only
      rw [mapM_map_congr fun p _ => map_value_line_congr fun kind => h kind p.unit.aa]

end Code

namespace Tables

structure SameStart (t t' : Tables) : Prop where
  strings : t'.strings.take 256 = t.strings.take 256
  types : t'.types.take 256 = t.types.take 256
  fields : (t'.fields.map FieldRef.name).take 256 = (t.fields.map FieldRef.name).take 256
  methods : (t'.methods.map fun m => (m.owner, m.name)).take 256 =
    (t.methods.map fun m => (m.owner, m.name)).take 256

theorem getElem?_of_take_eq {α : Type} {xs ys : Array α} (h : ys.take 256 = xs.take 256)
    (i : UInt8) : ys[i.toNat]? = xs[i.toNat]? := by
  have hi := i.toNat_lt
  have first (zs : Array α) : (zs.take 256)[i.toNat]? = zs[i.toNat]? := by
    rw [Array.take_eq_extract, Array.getElem?_extract, Nat.zero_add]
    split
    next => rfl
    next hs => exact (Array.getElem?_eq_none (by omega)).symm
  rw [← first ys, h, first xs]

theorem SameStart.textsAt_eq (h : t.SameStart t') (kind : OperandKind) (i : UInt8) :
    t'.textsAt kind i = t.textsAt kind i := by
  cases kind with
  | none => rfl
  | rawValue => rfl
  | strings => rw [textsAt, getElem?_of_take_eq h.strings]; rfl
  | types => rw [textsAt, getElem?_of_take_eq h.types]; rfl
  | fields =>
      have hn := getElem?_of_take_eq h.fields i
      rw [Array.getElem?_map, Array.getElem?_map] at hn
      simpa [textsAt, Function.comp_def] using congrArg (Option.map fun n => [n]) hn
  | methods =>
      have hm := getElem?_of_take_eq h.methods i
      rw [Array.getElem?_map, Array.getElem?_map] at hm
      simpa [textsAt, Function.comp_def] using congrArg (Option.map fun m => [m.1, m.2]) hm

def visible (t : Tables) : Tables where
  strings := t.strings.take 256
  types := t.types.take 256
  fields := (t.fields.map fun f => ⟨"", "", f.name⟩).take 256
  methods := (t.methods.map fun m => ⟨m.owner, m.name, 0⟩).take 256

theorem sameStart_visible (t : Tables) : t.SameStart t.visible where
  strings := by simp [visible]
  types := by simp [visible]
  fields := by simp [visible, Function.comp_def]
  methods := by simp [visible, Function.comp_def]

end Tables

namespace Dalvik

/-- A line shows nothing of the tables but the entry that the operand byte names in the table of
the instruction's kind, so the listing of a body shows no more than the first 256 entries of each,
and of these neither the owner and the type of a field nor the prototype of a method. -/
theorem line_shows_one_entry :
    (∀ opcode x, instructionSet.get? opcode = some x →
      ∀ u (t t' : Tables), t'.textsAt x.kind u.aa = t.textsAt x.kind u.aa →
        ∃ r r', x.line t u = .ok r ∧ x.line t' u = .ok r' ∧ r'.value = r.value) ∧
      (∀ opcode x, instructionSet.get? opcode = some x → x.kind = .none ∨ x.kind = .rawValue →
        ∀ u t t', ∃ r r', x.line t u = .ok r ∧ x.line t' u = .ok r' ∧ r'.value = r.value) ∧
      (∀ t t' : Tables, t.SameStart t' → ∀ b offset set,
        (Code.walk b offset t' set).map Run.outcome = (Code.walk b offset t set).map Run.outcome) ∧
      ∀ b offset t, (listing b offset t.visible).outcome = (listing b offset t).outcome := by
  refine ⟨?_, ?_, ?_, ?_⟩
  · intro opcode x hx u t t' h
    exact (sound_of_get? hx).same_line h
  · intro opcode x hx hk u t t'
    refine (sound_of_get? hx).same_line ?_
    rcases hk with hk | hk
    · rw [hk]
      rfl
    · rw [hk]
      rfl
  · intro t t' h b offset set
    exact Code.map_outcome_walk_congr h.textsAt_eq b offset set
  · intro b offset t
    have hw := Code.map_outcome_walk_congr t.sameStart_visible.textsAt_eq b offset instructionSet
    rw [walk_eq_ok, walk_eq_ok] at hw
    exact Except.ok.inj hw

theorem line_shows_one_entry_other_tables :
    let get : Instruction := ⟨0x54, "iget-object", .fields, instanceGet, some "object"⟩
    let const : Instruction := ⟨0x13, "const/16", .rawValue, constant 0, none⟩
    let b : Bytes := Array.replicate 16 0 ++ #[1, 0, 0, 0, 0x54, 0x00]
    let t : Tables := ⟨⟨#["a"], #[]⟩, #[⟨"LMain;", "I", "n"⟩, ⟨"LMain;", "I", "m"⟩], #[]⟩
    let shorter : Tables := ⟨⟨#[], #["LMain;"]⟩, #[⟨"LOther;", "J", "n"⟩], #[]⟩
    let retyped : Tables := ⟨⟨#["a"], #[]⟩, #[⟨"LOther;", "J", "n"⟩, ⟨"LMain;", "J", "m"⟩], #[]⟩
    (instructionSet.get? 0x54 = some get ∧
      shorter.textsAt .fields 9 = none ∧ t.textsAt .fields 9 = none ∧
      ∃ r r', get.line t ⟨0x54, 9⟩ = .ok r ∧ get.line shorter ⟨0x54, 9⟩ = .ok r' ∧
        r'.value = r.value) ∧
      (instructionSet.get? 0x13 = some const ∧
        ∃ r r', const.line t ⟨0x13, 1⟩ = .ok r ∧ const.line shorter ⟨0x13, 1⟩ = .ok r' ∧
          r'.value = r.value) ∧
      t.SameStart retyped ∧
      (Code.walk b 4 retyped instructionSet).map Run.outcome =
        (Code.walk b 4 t instructionSet).map Run.outcome := by
  intro get const b t shorter retyped
  have hg : instructionSet.get? 0x54 = some get := by decide +kernel
  have hc : instructionSet.get? 0x13 = some const := by decide +kernel
  have hs : t.SameStart retyped := ⟨rfl, rfl, by simp [t, retyped], rfl⟩
  refine ⟨⟨hg, rfl, rfl, ?_⟩, ⟨hc, ?_⟩, hs, ?_⟩
  · exact line_shows_one_entry.1 _ get hg ⟨0x54, 9⟩ t shorter rfl
  · exact line_shows_one_entry.2.1 _ const hc (.inr rfl) ⟨0x13, 1⟩ t shorter
  · exact line_shows_one_entry.2.2.1 t retyped hs b 4 instructionSet

end Dalvik

end DexListing
