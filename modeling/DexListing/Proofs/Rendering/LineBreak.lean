import DexListing.CommandLine
import DexListing.Proofs.Layout.RoundTrip
import DexListing.Proofs.Rendering.Entry

namespace DexListing

def lineBreaks (s : String) : Nat :=
  s.toList.countP fun c => c = '\n' || c = '\r'

theorem lineBreaks_append (s t : String) : lineBreaks (s ++ t) = lineBreaks s + lineBreaks t := by
  rw [lineBreaks, String.toList_append, List.countP_append]
  rfl

theorem lineBreaks_append_of_zero {s t : String} (hs : lineBreaks s = 0) (ht : lineBreaks t = 0) :
    lineBreaks (s ++ t) = 0 := by
  rw [lineBreaks_append, hs, ht]

theorem lineBreaks_join (parts : List String) :
    lineBreaks (String.join parts) = (parts.map lineBreaks).sum := by
  rw [lineBreaks, String.toList_join, List.countP_flatMap]
  rfl

theorem lineBreaks_intercalate {separator : String} (h : lineBreaks separator = 0)
    (parts : List String) :
    lineBreaks (separator.intercalate parts) = (parts.map lineBreaks).sum := by
  induction parts with
  | nil => rfl
  | cons s parts ih =>
      cases parts with
      | nil => simp
      | cons t parts =>
          rw [String.intercalate_cons_cons, lineBreaks_append, lineBreaks_append, h, ih]
          rfl

theorem lineBreaks_natural (n : Nat) : lineBreaks (toString n) = 0 := by
  rw [Nat.toString_eq_ofList_toDigits, lineBreaks, String.toList_ofList, List.countP_eq_zero]
  intro c hc
  have hd := Nat.isDigit_of_mem_toDigits (by decide) (by decide) hc
  rw [Bool.or_eq_true, decide_eq_true_eq, decide_eq_true_eq]
  rintro (rfl | rfl)
  · cases hd
  · cases hd

theorem lineBreaks_integer (v : Int) : lineBreaks (toString v) = 0 := by
  rw [Int.toString_eq_repr, Int.repr_eq_if, ← Nat.toString_eq_repr, ← Nat.toString_eq_repr]
  split
  · exact lineBreaks_natural _
  · exact lineBreaks_append_of_zero (by decide) (lineBreaks_natural _)

theorem lineBreaks_hexByte (x : UInt8) : lineBreaks (hexByte x) = 0 := by
  rw [hexByte, lineBreaks, String.toList_ofList]
  simp

theorem lineBreaks_placeholder (t : Table) (i : UInt8) : lineBreaks (t.placeholder i) = 0 := by
  have noun : lineBreaks t.noun = 0 := by cases t <;> decide
  have index := lineBreaks_natural i.toNat
  have sign : lineBreaks "@" = 0 := by decide
  exact lineBreaks_append_of_zero (lineBreaks_append_of_zero noun sign) index

def Piece.Unbroken : Piece → Prop
  | .text s => lineBreaks s = 0
  | _ => True

instance (piece : Piece) : Decidable piece.Unbroken :=
  match piece with
  | .text _ => inferInstanceAs (Decidable (_ = _))
  | .register _ => .isTrue trivial
  | .label _ => .isTrue trivial
  | .literal => .isTrue trivial

theorem lineBreaks_renderPieces {pieces : List Piece} (h : ∀ piece ∈ pieces, piece.Unbroken)
    (u : CodeUnit) : lineBreaks (renderPieces u pieces) = 0 := by
  rw [renderPieces, lineBreaks_join, List.map_map, List.sum_eq_zero_iff_forall_eq_nat]
  intro n hn
  obtain ⟨piece, hp, rfl⟩ := List.mem_map.1 hn
  have hu := h piece hp
  cases piece with
  | text s => exact hu
  | register part =>
      have mark : lineBreaks "v" = 0 := by decide
      exact lineBreaks_append_of_zero mark (lineBreaks_natural _)
  | label part =>
      have mark : lineBreaks "label_" = 0 := by decide
      exact lineBreaks_append_of_zero mark (lineBreaks_natural _)
  | literal => exact lineBreaks_integer _

theorem Slot.mem_of_mem_select {slot : Slot} {parts : List String} {s : String}
    (h : s ∈ slot.select parts) : s ∈ parts := by
  cases slot with
  | none => cases h
  | number shift => cases h
  | method => exact List.mem_of_mem_drop h
  | _ => exact h

theorem Slot.lineBreaks_written (slot : Slot) (u : CodeUnit) (entry : Option (List String)) :
    lineBreaks (slot.written u entry) =
      (((entry.map slot.select).getD []).map lineBreaks).sum := by
  cases entry with
  | some parts => exact lineBreaks_intercalate (by decide) _
  | none =>
      change lineBreaks (slot.placeholder u) = 0
      cases slot with
      | none => rfl
      | number shift => exact lineBreaks_integer _
      | ownedMethod =>
          have text : ownedMethod.placeholder u =
            Table.types.placeholder u.aa ++ "." ++ Table.methods.placeholder u.aa := rfl
          have dot : lineBreaks "." = 0 := by decide
          rw [text]
          exact lineBreaks_append_of_zero
            (lineBreaks_append_of_zero (lineBreaks_placeholder ..) dot) (lineBreaks_placeholder ..)
      | _ => exact lineBreaks_placeholder _ _

def Instruction.Unbroken (x : Instruction) : Prop :=
  (∀ piece ∈ x.template.before ++ x.template.after, piece.Unbroken) ∧
    ∀ note ∈ x.note, lineBreaks note = 0

instance (x : Instruction) : Decidable x.Unbroken :=
  inferInstanceAs (Decidable (_ ∧ _))

theorem Instruction.Unbroken.lineBreaks_written {x : Instruction} (h : x.Unbroken) (u : CodeUnit)
    (entry : Option (List String)) :
    lineBreaks (x.written u entry) =
      (((entry.map x.template.slot.select).getD []).map lineBreaks).sum := by
  obtain ⟨pieces, note⟩ := h
  have before : lineBreaks (renderPieces u x.template.before) = 0 :=
    lineBreaks_renderPieces (fun piece hp => pieces piece (List.mem_append_left _ hp)) u
  have after : lineBreaks (renderPieces u x.template.after) = 0 :=
    lineBreaks_renderPieces (fun piece hp => pieces piece (List.mem_append_right _ hp)) u
  have annotated (line : String) : lineBreaks (x.annotate line) = lineBreaks line := by
    rw [annotate]
    split
    next n hn =>
      have mark : lineBreaks "  // " = 0 := by decide
      rw [lineBreaks_append, lineBreaks_append, mark, note n hn, Nat.add_zero]
    next => rfl
  rw [written, annotated, lineBreaks_append, lineBreaks_append, before, after,
    Slot.lineBreaks_written]
  omega

namespace Code

variable {set : InstructionSet} {t : Tables} {u : CodeUnit}

def shown (set : InstructionSet) (t : Tables) (u : CodeUnit) : List String :=
  match set.get? u.opcode with
  | some x => ((t.textsAt x.kind u.aa).map x.template.slot.select).getD []
  | none => []

theorem lineBreaks_unknownText (opcode : UInt8) : lineBreaks (unknownText opcode) = 0 := by
  have text : unknownText opcode = "// Unknown opcode: 0x" ++ hexByte opcode := rfl
  have mark : lineBreaks "// Unknown opcode: 0x" = 0 := by decide
  rw [text]
  exact lineBreaks_append_of_zero mark (lineBreaks_hexByte opcode)

theorem lineBreaks_written (h : ∀ opcode x, set.get? opcode = some x → x.Unbroken) (t : Tables)
    (u : CodeUnit) : lineBreaks (written set t u) = ((shown set t u).map lineBreaks).sum := by
  rw [written, shown]
  cases hx : set.get? u.opcode with
  | none => exact lineBreaks_unknownText u.opcode
  | some x => exact (h _ x hx).lineBreaks_written u _

theorem exists_texts_of_mem_shown {s : String} (h : s ∈ shown set t u) :
    ∃ kind parts, t.textsAt kind u.aa = some parts ∧ s ∈ parts := by
  rw [shown] at h
  cases hx : set.get? u.opcode with
  | none =>
      rw [hx] at h
      cases h
  | some x =>
      rw [hx] at h
      cases he : t.textsAt x.kind u.aa with
      | none =>
          simp only [he] at h
          cases h
      | some parts =>
          simp only [he] at h
          exact ⟨x.kind, parts, he, Slot.mem_of_mem_select h⟩

end Code

namespace Dalvik

theorem unbroken_of_mem : ∀ x ∈ instructions, x.Unbroken := by
  decide +kernel

def breaksShown (t : Tables) (p : PlacedUnit) : Nat :=
  ((Code.shown instructionSet t p.unit).map lineBreaks).sum

theorem lineBreaks_line (t : Tables) (p : PlacedUnit) :
    lineBreaks (line t p).value.text = breaksShown t p := by
  rw [text_line]
  refine Code.lineBreaks_written (fun opcode x hx => ?_) t p.unit
  exact unbroken_of_mem x (InstructionSet.mem_of_get?_ofList hx)

end Dalvik

theorem Container.Describes.mem_strings_of_textsAt {c : Container} {b : Bytes} (h : c.Describes b)
    {kind : OperandKind} {i : UInt8} {parts : List String}
    (hp : c.tables.textsAt kind i = some parts) : ∀ s ∈ parts, s ∈ c.tables.strings := by
  have ofString {k : Nat} {s : String} (hs : c.tables.strings[k]? = some s) :
      s ∈ c.tables.strings := Array.mem_of_getElem? hs
  have ofType {k : Nat} {s : String} (hs : c.tables.types[k]? = some s) :
      s ∈ c.tables.strings := by
    obtain ⟨hk, rfl⟩ := Array.getElem?_eq_some_iff.1 hs
    exact ofString (h.types k hk)
  cases kind with
  | none => cases hp
  | rawValue => cases hp
  | strings =>
      obtain ⟨s, hs, rfl⟩ := Option.map_eq_some_iff.1 hp
      simpa using ofString hs
  | types =>
      obtain ⟨s, hs, rfl⟩ := Option.map_eq_some_iff.1 hp
      simpa using ofType hs
  | fields =>
      obtain ⟨f, hf, rfl⟩ := Option.map_eq_some_iff.1 hp
      obtain ⟨hk, rfl⟩ := Array.getElem?_eq_some_iff.1 hf
      simpa using ofString (h.fields _ hk).name
  | methods =>
      obtain ⟨m, hm, rfl⟩ := Option.map_eq_some_iff.1 hp
      obtain ⟨hk, rfl⟩ := Array.getElem?_eq_some_iff.1 hm
      have stands := h.methods _ hk
      simpa using ⟨ofType stands.owner, ofString stands.name⟩

theorem Container.Describes.mem_strings_of_shown {c : Container} {b : Bytes} (h : c.Describes b)
    {set : InstructionSet} {u : CodeUnit} {s : String} (hs : s ∈ Code.shown set c.tables u) :
    s ∈ c.tables.strings := by
  obtain ⟨kind, parts, he, hp⟩ := Code.exists_texts_of_mem_shown hs
  exact h.mem_strings_of_textsAt he s hp

namespace ClassListing

def bodyText (y : ClassListing) : String :=
  String.join (y.texts.map fun s => "    " ++ s ++ "\n")

theorem lineBreaks_bodyText (y : ClassListing) :
    lineBreaks y.bodyText = y.lines.length + (y.texts.map lineBreaks).sum := by
  have line (s : String) : lineBreaks ("    " ++ s ++ "\n") = 1 + lineBreaks s := by
    have indent : lineBreaks "    " = 0 := by decide
    have feed : lineBreaks "\n" = 1 := by decide
    rw [lineBreaks_append, lineBreaks_append, indent, feed]
    omega
  rw [bodyText, lineBreaks_join, List.map_map]
  simp only [Function.comp_def, line, List.sum_map_add]
  simp [texts, Function.comp_def]

end ClassListing

section Listed

variable {b : Bytes} {c : Container} {x : ClassDef} {y : ClassListing} {found : List PlacedUnit}

theorem map_lineBreaks_texts (hf : Code.units b x.dataOffset = .ok found)
    (hy : (c.classListing b x).outcome = .ok y) :
    y.texts.map lineBreaks = found.map (Dalvik.breaksShown c.tables) := by
  obtain ⟨found', hf', rfl⟩ := Container.outcome_classListing_eq_ok_iff.1 hy
  obtain rfl := Except.ok.inj (hf.symm.trans hf')
  simp only [ClassListing.texts, List.map_map]
  refine List.map_congr_left fun p _ => ?_
  simp only [Function.comp_apply, Dalvik.lineBreaks_line]

theorem length_lines (hf : Code.units b x.dataOffset = .ok found)
    (hy : (c.classListing b x).outcome = .ok y) : y.lines.length = found.length := by
  have hl := congrArg List.length (map_lineBreaks_texts hf hy)
  simpa [ClassListing.texts] using hl

theorem Container.Describes.breaksShown_eq_zero (h : c.Describes b)
    (unbroken : ∀ s ∈ c.tables.strings, lineBreaks s = 0) (p : PlacedUnit) :
    Dalvik.breaksShown c.tables p = 0 := by
  rw [Dalvik.breaksShown, List.sum_eq_zero_iff_forall_eq_nat]
  intro n hn
  obtain ⟨s, hs, rfl⟩ := List.mem_map.1 hn
  exact unbroken s (h.mem_strings_of_shown hs)

/-- The line breaks of a listed text are those of the table texts that it shows. So a printed body
has one line for each code unit, and one more for each line break in a text that is shown. -/
theorem line_breaks_are_those_shown {o : Options} {pool : WorkerPool} {d : Listing}
    (hd : (disassemble b o pool).outcome = .ok d) :
    ∃ c, (Container.decode b o pool).outcome = .ok c ∧
      List.Forall₂ (fun (x : ClassDef) (y : ClassListing) =>
        ∃ found, Code.units b x.dataOffset = .ok found ∧
          y.texts.map lineBreaks = found.map (Dalvik.breaksShown c.tables) ∧
          lineBreaks y.bodyText =
            found.length + (found.map (Dalvik.breaksShown c.tables)).sum ∧
          ((∀ s ∈ c.tables.strings, lineBreaks s = 0) →
            (∀ l ∈ y.lines, lineBreaks l.text = 0) ∧ lineBreaks y.bodyText = found.length))
        c.classes.toList d.classes := by
  obtain ⟨c, hc, _, hl⟩ := outcome_disassemble_eq_ok_iff.1 hd
  refine ⟨c, hc, hl.imp fun x y hy => ?_⟩
  obtain ⟨found, hf, _⟩ := Container.outcome_classListing_eq_ok_iff.1 hy
  have texts := map_lineBreaks_texts hf hy
  have body : lineBreaks y.bodyText =
      found.length + (found.map (Dalvik.breaksShown c.tables)).sum := by
    rw [y.lineBreaks_bodyText, texts, length_lines hf hy]
  refine ⟨found, hf, texts, body, fun unbroken => ?_⟩
  have describes := (Container.decode_eq_ok_iff.1 hc).2
  have none (p : PlacedUnit) : Dalvik.breaksShown c.tables p = 0 :=
    describes.breaksShown_eq_zero unbroken p
  constructor
  · intro l hl
    have hm : lineBreaks l.text ∈ y.texts.map lineBreaks :=
      List.mem_map_of_mem (List.mem_map_of_mem hl)
    rw [texts] at hm
    obtain ⟨p, _, hp⟩ := List.mem_map.1 hm
    rw [← hp, none]
  · have sum : (found.map (Dalvik.breaksShown c.tables)).sum = 0 := by
      rw [List.sum_eq_zero_iff_forall_eq_nat]
      intro n hn
      obtain ⟨p, _, rfl⟩ := List.mem_map.1 hn
      exact none p
    rw [body, sum, Nat.add_zero]

end Listed

theorem line_breaks_are_those_shown_sample :
    (disassemble (Layout.encode Layout.sample).toArray {} (.cutAt 1)).outcome =
        .ok Layout.sample.listing ∧
      List.Forall₂ (fun (x : ClassDef) (y : ClassListing) =>
        ∃ found, Code.units (Layout.encode Layout.sample).toArray x.dataOffset = .ok found ∧
          (∀ l ∈ y.lines, lineBreaks l.text = 0) ∧ lineBreaks y.bodyText = found.length)
        Layout.sample.container.classes.toList Layout.sample.listing.classes := by
  have listed := Layout.outcome_disassemble_sample {} (.cutAt 1)
  obtain ⟨c, hc, hl⟩ := line_breaks_are_those_shown listed
  have decoded := (Layout.regions_encode Layout.sample).outcome_decode Layout.valid_sample
    (Layout.size_encode Layout.valid_sample) {} (.cutAt 1)
  obtain rfl := Except.ok.inj (hc.symm.trans decoded)
  have unbroken : ∀ s ∈ Layout.sample.container.tables.strings, lineBreaks s = 0 := by
    decide +kernel
  refine ⟨listed, hl.imp fun x y hy => ?_⟩
  obtain ⟨found, hf, _, _, whole⟩ := hy
  obtain ⟨lines, body⟩ := whole unbroken
  exact ⟨found, hf, lines, body⟩

namespace Layout

/-- One string is a text of two lines, and the only code unit loads it. -/
def brokenText : Contents where
  strings := [⟨"LMain;", .standard⟩, ⟨"a\nb", .standard⟩]
  types := [0]
  fields := []
  methods := []
  classes := [⟨0, ⟨1⟩, none, none, some ⟨1, 1, 0, 0, 0, [⟨0x1A, 0x01⟩]⟩⟩]

theorem valid_brokenText : brokenText.Valid where
  types := by simp [brokenText]
  fields := by simp [brokenText]
  methods := by simp [brokenText]
  classes := by simp [brokenText]
  size := by decide +kernel

theorem line_of_brokenText_is_broken :
    (disassemble (encode brokenText).toArray {} (.cutAt 1)).outcome = .ok
        ⟨some 35, [⟨"LMain;", none, none, [⟨0xB8, "v1 = \"a\nb\";"⟩]⟩]⟩ ∧
      lineBreaks "v1 = \"a\nb\";" = 1 ∧
      brokenText.listing.classes.map (fun y => (y.lines.length, lineBreaks y.bodyText)) =
        [(1, 2)] := by
  have listed := (regions_encode brokenText).outcome_disassemble valid_brokenText
    (size_encode valid_brokenText) {} (.cutAt 1)
  refine ⟨listed.trans (congrArg Except.ok ?_), by decide, by decide +kernel⟩
  decide +kernel

end Layout

end DexListing
