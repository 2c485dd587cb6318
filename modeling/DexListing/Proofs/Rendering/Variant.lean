import DexListing.Proofs.Layout.RoundTrip
import DexListing.Proofs.Rendering.Annotation

namespace DexListing.Dalvik

def placeholders : List String :=
  (List.range 256).map fun n => Code.unknownText (UInt8.ofNat n)

theorem mem_placeholders {text : String} :
    text ∈ placeholders ↔ ∃ opcode, text = Code.unknownText opcode := by
  rw [placeholders, List.mem_map]
  constructor
  · rintro ⟨n, _, rfl⟩
    exact ⟨_, rfl⟩
  · rintro ⟨opcode, rfl⟩
    exact ⟨opcode.toNat, List.mem_range.2 opcode.toNat_lt, by rw [UInt8.ofNat_toNat]⟩

/-- What a line says of its instruction: nothing if it is a placeholder, else its note. -/
def variant? (text : String) : Option (Option String) :=
  if text ∈ placeholders then none else some (noteIn text)

structure Tells (text : String) (opcode : UInt8) : Prop where
  placeholder : ∀ other,
    text = Code.unknownText other ↔ opcode = other ∧ instructionSet.get? opcode = none
  empty : text = "" ↔ opcode = 0
  variant : variant? text = (instructionSet.get? opcode).map Instruction.note

theorem tells_of_registered {x : Instruction} {opcode : UInt8} {u : CodeUnit}
    {source : OperandSource} {r : Resolved String} (hx : instructionSet.get? opcode = some x)
    (h : x.render u source = .ok r) : Tells r.value opcode where
  placeholder other := by
    have hm := InstructionSet.mem_of_get?_ofList hx
    simp [render_ne_unknownText hm h, hx]
  empty := by
    rw [render_eq_empty_iff (InstructionSet.mem_of_get?_ofList hx) h,
      InstructionSet.opcode_of_get?_ofList hx]
  variant := by
    have hm := InstructionSet.mem_of_get?_ofList hx
    have hp : r.value ∉ placeholders := by
      rw [mem_placeholders]
      rintro ⟨other, he⟩
      exact render_ne_unknownText hm h other he
    rw [variant?, if_neg hp, noteIn_render hm h, hx, Option.map_some]

theorem tells_of_unregistered {opcode : UInt8} (h : instructionSet.get? opcode = none) :
    Tells (Code.unknownText opcode) opcode where
  placeholder other := by
    constructor
    · intro he
      exact ⟨Code.unknownText_injective he, h⟩
    · rintro ⟨rfl, _⟩
      rfl
  empty := by
    constructor
    · intro he
      have hl := congrArg String.toList he
      rw [Code.toList_unknownText] at hl
      cases hl
    · rintro rfl
      cases h
  variant := by
    rw [variant?, if_pos (mem_placeholders.2 ⟨opcode, rfl⟩), h, Option.map_none]

theorem tells_line (tables : Tables) (p : PlacedUnit) :
    Tells (line tables p).value.text p.unit.opcode := by
  obtain ⟨r, hr, hl⟩ := map_eq_ok_iff.1 (line_eq_ok tables p)
  rw [← hl]
  rw [Code.text] at hr
  split at hr
  next x hx => exact tells_of_registered hx hr
  next hx =>
    cases hr
    exact tells_of_unregistered hx

/-- Whatever the tables hold, instructions with different notes have different lines, no
registered instruction has the line of a placeholder, and every line of a listing tells whether
its opcode is registered and with which note. -/
theorem lines_tell_variants :
    (∀ x y, x ∈ instructions → y ∈ instructions → x.note ≠ y.note →
        ∀ u s r u' s' r', x.render u s = .ok r → y.render u' s' = .ok r' → r.value ≠ r'.value) ∧
      (∀ x ∈ instructions, ∀ u s r, x.render u s = .ok r →
        ∀ opcode, r.value ≠ Code.unknownText opcode) ∧
      ∀ b o pool d, (disassemble b o pool).outcome = .ok d →
        ∃ c, (Container.decode b o pool).outcome = .ok c ∧
          List.Forall₂ (fun (x : ClassDef) (y : ClassListing) =>
            ∀ k l, y.lines[k]? = some l →
              Tells l.text (byteAt b (x.dataOffset.toNat + 16 + 2 * k)))
            c.classes.toList d.classes := by
  refine ⟨?_, ?_, ?_⟩
  · intro x y hx hy hne u s r u' s' r' hr hr' he
    exact hne (by rw [← noteIn_render hx hr, ← noteIn_render hy hr', he])
  · intro x hx u s r hr opcode
    exact render_ne_unknownText hx hr opcode
  · intro b o pool d hd
    obtain ⟨c, hc, _, hl⟩ := outcome_disassemble_eq_ok_iff.1 hd
    refine ⟨c, hc, hl.imp fun x y hy k l hk => ?_⟩
    obtain ⟨found, hf, rfl⟩ := Container.outcome_classListing_eq_ok_iff.1 hy
    rw [List.map_map, List.getElem?_map, Option.map_eq_some_iff] at hk
    obtain ⟨p, hp, rfl⟩ := hk
    obtain rfl := Code.eq_of_getElem?_units hf hp
    exact tells_line c.tables _

theorem lines_tell_variants_forged :
    let put : Instruction := ⟨0x67, "sput", .fields, staticPut, some "static"⟩
    let wide : Instruction := ⟨0x04, "move-wide", .none, move, some "wide"⟩
    let pool : Array FieldRef :=
      #[⟨"LMain;", "I", "v0 = v0;  // wide"⟩, ⟨"LMain;", "I", "// Unknown opcode: 0x3e"⟩]
    (∃ r r', put.render ⟨0x67, 0⟩ (.fields pool) = .ok r ∧
        wide.render ⟨0x04, 0⟩ .none = .ok r' ∧ r.value ≠ r'.value) ∧
      (∃ r, put.render ⟨0x67, 1⟩ (.fields pool) = .ok r ∧ r.value ≠ Code.unknownText 0x3E) ∧
      ∃ d c, (disassemble (Layout.encode Layout.sample).toArray {} (.cutAt 1)).outcome = .ok d ∧
        (Container.decode (Layout.encode Layout.sample).toArray {} (.cutAt 1)).outcome = .ok c ∧
        List.Forall₂ (fun (x : ClassDef) (y : ClassListing) =>
          ∀ k l, y.lines[k]? = some l → Tells l.text
            (byteAt (Layout.encode Layout.sample).toArray (x.dataOffset.toNat + 16 + 2 * k)))
          c.classes.toList d.classes := by
  intro put wide pool
  have hput : put ∈ instructions := by decide +kernel
  have hwide : wide ∈ instructions := by decide +kernel
  refine ⟨?_, ?_, ?_⟩
  · have hp : put.render ⟨0x67, 0⟩ (.fields pool) = .ok _ := rfl
    have hw : wide.render ⟨0x04, 0⟩ .none = .ok _ := rfl
    exact ⟨_, _, hp, hw,
      lines_tell_variants.1 put wide hput hwide (by decide) _ _ _ _ _ _ hp hw⟩
  · have hp : put.render ⟨0x67, 1⟩ (.fields pool) = .ok _ := rfl
    exact ⟨_, hp, lines_tell_variants.2.1 put hput _ _ _ hp 0x3E⟩
  · have hd := Layout.outcome_disassemble_sample {} (.cutAt 1)
    obtain ⟨c, hc, hl⟩ := lines_tell_variants.2.2 _ _ _ _ hd
    exact ⟨_, c, hd, hc, hl⟩

end DexListing.Dalvik
