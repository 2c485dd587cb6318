import DexListing.Listing
import DexListing.Proofs.Outcome
import Mathlib.Data.List.DropRight

namespace DexListing

def lastPart (text : String) : List Char :=
  text.toList.rtakeWhile (· ≠ '/')

theorem lastPart_of_toList_eq {text : String} {xs ys : List Char}
    (h : text.toList = xs ++ '/' :: ys) (hy : '/' ∉ ys) : lastPart text = ys := by
  have hp : ∀ c ∈ ys.reverse, decide (c ≠ '/') = true := by
    intro c hc
    have hne : c ≠ '/' := fun he => hy (he ▸ List.mem_reverse.1 hc)
    simpa using hne
  rw [lastPart, h, List.rtakeWhile, List.reverse_append, List.reverse_cons, List.append_assoc,
    List.takeWhile_append_of_pos hp]
  simp

theorem getLast?_lastPart {text : String} {c : Char} (h : text.toList.getLast? = some c)
    (hc : c ≠ '/') : (lastPart text).getLast? = some c := by
  obtain ⟨xs, hx⟩ := List.getLast?_eq_some_iff.1 h
  rw [lastPart, hx, List.rtakeWhile_concat_pos _ _ _ (by simpa using hc), List.getLast?_concat]

section Template

variable {u : CodeUnit} {source : OperandSource} {c : Char}

def lastChar (pieces : List Piece) : Option Char :=
  match pieces.getLast? with
  | some (.text s) => s.toList.getLast?
  | _ => none

theorem getLast?_renderPieces {pieces : List Piece} (h : lastChar pieces = some c) :
    (renderPieces u pieces).toList.getLast? = some c := by
  rw [lastChar] at h
  split at h
  next s hs =>
    obtain ⟨init, rfl⟩ := List.getLast?_eq_some_iff.1 hs
    simp [renderPieces, Piece.render, List.getLast?_append, h]
  next => cases h

def Template.lastChar (t : Template) : Option Char :=
  match t.slot with
  | .none => DexListing.lastChar (t.before ++ t.after)
  | _ => DexListing.lastChar t.after

theorem Template.getLast?_render {t : Template} {r : Resolved String}
    (h : t.render u source = .ok r) (hc : t.lastChar = some c) :
    r.value.toList.getLast? = some c := by
  obtain ⟨operand, ho, rfl⟩ := map_eq_ok_iff.1 h
  rw [Template.lastChar] at hc
  split at hc
  next hs =>
    rw [hs] at ho
    cases ho
    have hl := getLast?_renderPieces (u := u) hc
    simpa [Resolved.map, renderPieces] using hl
  next =>
    have hl := getLast?_renderPieces (u := u) hc
    simp [Resolved.map, List.getLast?_append, hl]

end Template

theorem slash_not_mem_hexByte (x : UInt8) : '/' ∉ (hexByte x).toList := by
  rw [hexByte, String.toList_ofList]
  simp

namespace Code

theorem toList_unknownText (opcode : UInt8) :
    (unknownText opcode).toList =
      "// Unknown opcode: 0x".toList ++ (hexByte opcode).toList :=
  String.toList_append

theorem lastPart_unknownText (opcode : UInt8) :
    lastPart (unknownText opcode) = " Unknown opcode: 0x".toList ++ (hexByte opcode).toList := by
  have ht : (unknownText opcode).toList =
      ['/'] ++ '/' :: (" Unknown opcode: 0x".toList ++ (hexByte opcode).toList) :=
    toList_unknownText opcode
  refine lastPart_of_toList_eq ht ?_
  rw [List.mem_append]
  rintro (h | h)
  · exact absurd h (by decide)
  · exact slash_not_mem_hexByte opcode h

theorem unknownText_injective {x y : UInt8} (h : unknownText x = unknownText y) : x = y := by
  have hl := congrArg String.toList h
  rw [toList_unknownText, toList_unknownText] at hl
  exact hexByte_injective (String.toList_inj.1 (List.append_cancel_left hl))

end Code

def Unmarked (part : List Char) : Prop :=
  part = [] ∨ part = " fill array with data".toList ∨
    part.getLast? = some ';' ∨ part.getLast? = some '\x7b'

instance (part : List Char) : Decidable (Unmarked part) :=
  inferInstanceAs (Decidable (_ ∨ _ ∨ _ ∨ _))

namespace Dalvik

theorem note_of_mem : ∀ x ∈ instructions, ∀ n ∈ x.note,
    '/' ∉ n.toList ∧ n.toList.head? ≠ some 'U' ∧ ¬ Unmarked (' ' :: n.toList) := by
  decide +kernel

theorem template_of_mem : ∀ x ∈ instructions, x.note = none →
    x.template.lastChar = some ';' ∨ x.template.lastChar = some '\x7b' ∨
      x.template = plain ["// fill array with data"] ∨ x.template = plain [] := by
  decide +kernel

theorem opcode_eq_zero_iff_of_mem : ∀ x ∈ instructions,
    x.opcode = 0 ↔ x.template = plain [] ∧ x.note = none := by
  decide +kernel

theorem lastPart_annotate {x : Instruction} (hx : x ∈ instructions) {n : String}
    (hn : x.note = some n) (line : String) : lastPart (x.annotate line) = ' ' :: n.toList := by
  obtain ⟨slash, _, _⟩ := note_of_mem x hx n hn
  have ht : (x.annotate line).toList = (line.toList ++ "  /".toList) ++ '/' :: ' ' :: n.toList := by
    have ha : x.annotate line = line ++ "  // " ++ n := by rw [Instruction.annotate, hn]
    rw [ha, String.toList_append, String.toList_append, List.append_assoc, List.append_assoc]
    rfl
  refine lastPart_of_toList_eq ht ?_
  rw [List.mem_cons]
  rintro (h | h)
  · cases h
  · exact slash h

variable {x : Instruction} {u : CodeUnit} {source : OperandSource} {r : Resolved String}

theorem exists_render_eq (h : x.render u source = .ok r) :
    ∃ l, x.template.render u source = .ok l ∧ r.value = x.annotate l.value := by
  obtain ⟨l, hl, rfl⟩ := map_eq_ok_iff.1 h
  exact ⟨l, hl, rfl⟩

theorem value_render_plain {pieces : List Piece} (h : (plain pieces).render u source = .ok r) :
    r.value = renderPieces u pieces := by
  cases h
  simp [plain, Resolved.map, renderPieces]

theorem value_cases_of_note_eq_none (hx : x ∈ instructions) (hn : x.note = none)
    (h : x.render u source = .ok r) :
    r.value.toList.getLast? = some ';' ∨ r.value.toList.getLast? = some '\x7b' ∨
      r.value = "// fill array with data" ∨ (r.value = "" ∧ x.template = plain []) := by
  obtain ⟨l, hl, hr⟩ := exists_render_eq h
  have hr : r.value = l.value := by rw [hr, Instruction.annotate, hn]
  rw [hr]
  rcases template_of_mem x hx hn with hc | hc | ht | ht
  · exact .inl (Template.getLast?_render hl hc)
  · exact .inr (.inl (Template.getLast?_render hl hc))
  · rw [ht] at hl
    exact .inr (.inr (.inl (value_render_plain hl)))
  · rw [ht] at hl
    exact .inr (.inr (.inr ⟨value_render_plain hl, ht⟩))

theorem unmarked_of_note_eq_none (hx : x ∈ instructions) (hn : x.note = none)
    (h : x.render u source = .ok r) : Unmarked (lastPart r.value) := by
  rcases value_cases_of_note_eq_none hx hn h with hc | hc | hv | ⟨hv, _⟩
  · exact .inr (.inr (.inl (getLast?_lastPart hc (by decide))))
  · exact .inr (.inr (.inr (getLast?_lastPart hc (by decide))))
  · rw [hv]
    decide
  · rw [hv]
    decide

def notes : List String :=
  instructions.filterMap Instruction.note

def noteIn (text : String) : Option String :=
  notes.find? fun n => lastPart text = ' ' :: n.toList

theorem mem_notes {n : String} : n ∈ notes ↔ ∃ x ∈ instructions, x.note = some n :=
  List.mem_filterMap

theorem noteIn_render (hx : x ∈ instructions) (h : x.render u source = .ok r) :
    noteIn r.value = x.note := by
  cases hn : x.note with
  | none =>
      have unmarked := unmarked_of_note_eq_none hx hn h
      rw [noteIn, List.find?_eq_none]
      intro n hmem
      obtain ⟨y, hy, hyn⟩ := mem_notes.1 hmem
      obtain ⟨_, _, marked⟩ := note_of_mem y hy n hyn
      intro he
      rw [of_decide_eq_true he] at unmarked
      exact marked unmarked
  | some n =>
      obtain ⟨l, _, hr⟩ := exists_render_eq h
      have hp : lastPart r.value = ' ' :: n.toList := hr ▸ lastPart_annotate hx hn l.value
      cases hf : noteIn r.value with
      | none =>
          have hne := List.find?_eq_none.1 hf n (mem_notes.2 ⟨x, hx, hn⟩)
          exact absurd (decide_eq_true hp) hne
      | some m =>
          rw [noteIn] at hf
          have hm : lastPart r.value = ' ' :: m.toList := by
            simpa using List.find?_some hf
          rw [hp, List.cons.injEq, String.toList_inj] at hm
          rw [hm.2]

theorem not_unmarked_unknownText (opcode : UInt8) :
    ¬ Unmarked (lastPart (Code.unknownText opcode)) := by
  rw [Code.lastPart_unknownText, hexByte, String.toList_ofList]
  rintro (h | h | h | h)
  · cases h
  · cases h
  · simp at h
  · simp at h

theorem render_ne_unknownText (hx : x ∈ instructions) (h : x.render u source = .ok r)
    (opcode : UInt8) : r.value ≠ Code.unknownText opcode := by
  intro he
  cases hn : x.note with
  | none => exact not_unmarked_unknownText opcode (he ▸ unmarked_of_note_eq_none hx hn h)
  | some n =>
      obtain ⟨l, _, hr⟩ := exists_render_eq h
      obtain ⟨_, head, _⟩ := note_of_mem x hx n hn
      have hp := lastPart_annotate hx hn l.value
      rw [← hr, he, Code.lastPart_unknownText] at hp
      have hl := (List.cons.inj hp).2
      exact head (by rw [← hl]; rfl)

theorem render_eq_empty_iff (hx : x ∈ instructions) (h : x.render u source = .ok r) :
    r.value = "" ↔ x.opcode = 0 := by
  rw [opcode_eq_zero_iff_of_mem x hx]
  constructor
  · intro he
    cases hn : x.note with
    | none =>
        refine ⟨?_, rfl⟩
        rcases value_cases_of_note_eq_none hx hn h with hc | hc | hv | ⟨_, ht⟩
        · rw [he] at hc
          cases hc
        · rw [he] at hc
          cases hc
        · rw [he] at hv
          exact absurd hv (by decide)
        · exact ht
    | some n =>
        obtain ⟨l, _, hr⟩ := exists_render_eq h
        have hp := lastPart_annotate hx hn l.value
        rw [← hr, he] at hp
        cases hp
  · rintro ⟨ht, hn⟩
    obtain ⟨l, hl, hr⟩ := exists_render_eq h
    rw [ht] at hl
    rw [hr, Instruction.annotate, hn, value_render_plain hl]
    rfl

end Dalvik

end DexListing
