import DexListing.Proofs.Code.Listed
import DexListing.Proofs.Layout.Described

namespace DexListing

namespace Layout

variable {c : Contents} {b : Bytes}

theorem value_line (tables : Tables) (q : PlacedUnit) :
    (Dalvik.line tables q).value = ⟨UInt32.ofNat q.position, unitText tables q.unit⟩ := by
  have hl := Dalvik.line_eq_ok tables q
  rw [Code.line, Code.text] at hl
  unfold unitText
  split
  next x hx =>
    have hr := eq_ok_returned ((Dalvik.sound_instructionSet _ x hx).exists_line tables q.unit)
    simp only [hx] at hl
    rw [hr] at hl
    exact (congrArg Resolved.value (Except.ok.inj hl)).symm
  next hx =>
    simp only [hx] at hl
    exact (congrArg Resolved.value (Except.ok.inj hl)).symm

theorem holds_units {p : Nat} {item : CodeItem} (h : Holds b p item.bytes) {k : Nat}
    (hk : k < item.units.length) : Holds b (unitAt p k) (unitBytes item.units[k]) := by
  simp only [CodeItem.bytes, Holds.append_iff, List.length_append, length_bytes16, length_bytes32]
    at h
  exact h.2.flatMap length_unitBytes k hk

theorem unitCount_of_holds {p : UInt32} {item : CodeItem} (h : Holds b p.toNat item.bytes)
    (hb : b.size < 2 ^ 32) : Code.unitCount b p = item.units.length := by
  have hle := h.le
  simp only [CodeItem.bytes, List.length_append, length_flatMap length_unitBytes] at hle
  simp only [CodeItem.bytes, Holds.append_iff, List.length_append, length_bytes16, length_bytes32]
    at h
  obtain ⟨⟨_, hn⟩, _⟩ := h
  rw [Code.unitCount, word32At_bytes32 hn, UInt32.toNat_ofNat', Nat.mod_eq_of_lt (by omega)]

theorem units_of_holds {p : UInt32} {item : CodeItem} (h : Holds b p.toNat item.bytes)
    (hp : p ≠ 0) (hb : b.size < 2 ^ 32) :
    Code.units b p = .ok (item.units.mapIdx fun k u => ⟨unitAt p.toNat k, u⟩) := by
  have hn := unitCount_of_holds h hb
  have hle := h.le
  simp only [CodeItem.bytes, List.length_append, length_flatMap length_unitBytes, length_bytes16,
    length_bytes32] at hle
  rw [Code.units_of_le hp (by omega), hn]
  congr 1
  apply List.ext_getElem
  · simp [Code.unitsAt]
  · intro k hk _
    have hk : k < item.units.length := by simpa [Code.unitsAt] using hk
    have hu := holds_units h hk
    simp only [unitBytes, Holds.cons_iff] at hu
    obtain ⟨⟨_, h0⟩, ⟨_, h1⟩, _⟩ := hu
    simp only [unitAt] at h0 h1
    simp [Code.unitsAt, unitAt, h0, h1]

theorem outcome_listing_of_holds {p : UInt32} {item : CodeItem} (h : Holds b p.toNat item.bytes)
    (hp : p ≠ 0) (hb : b.size < 2 ^ 32) (tables : Tables) :
    (Dalvik.listing b p tables).outcome =
      .ok (item.lines tables p.toNat) := by
  rw [Dalvik.outcome_listing, units_of_holds h hp hb]
  simp only [Except.map, List.map_map, CodeItem.lines]
  congr 1
  apply List.ext_getElem
  · simp
  · intro k hk _
    simp [value_line]

theorem Contents.version_header (c : Contents) : c.container.header.version = some 35 := by
  rfl

namespace Regions

theorem outcome_classListing (h : Regions c b) (hb : b.size < 2 ^ 32) {x : ClassIds × Nat}
    (hx : x ∈ c.placedClasses) :
    (c.container.classListing b (c.classDef x)).outcome = .ok (c.classListing x) := by
  have body : (c.container.body b (c.classDef x)).outcome = .ok (c.classListing x).lines := by
    rw [Container.outcome_body, within_eq_ok_iff]
    change (Dalvik.listing b (UInt32.ofNat x.2) c.tables).outcome = _
    cases hi : x.1.code with
    | none =>
        rw [eq_zero_of_mem_placeCode hx hi, Dalvik.outcome_listing]
        simp only [Contents.classListing, hi]
        rfl
    | some item =>
        obtain ⟨hle, _, hs⟩ := codeStands_of_mem_placeCode h.code hx hi
        have hend := hs.le
        have hp : (UInt32.ofNat x.2).toNat = x.2 := by
          rw [UInt32.toNat_ofNat', Nat.mod_eq_of_lt (by omega)]
        have h0 : UInt32.ofNat x.2 ≠ 0 := by
          intro h0
          rw [h0, UInt32.toNat_zero] at hp
          have := c.codeAt_pos
          omega
        rw [← hp] at hs
        rw [outcome_listing_of_holds hs h0 hb, hp]
        simp only [Contents.classListing, hi]
  rw [Container.classListing, Run.outcome_bind, body]
  rfl

theorem outcome_classes (h : Regions c b) (hb : b.size < 2 ^ 32) :
    (Run.each (c.container.classListing b) c.container.classes.toList).outcome =
      .ok (c.placedClasses.map c.classListing) := by
  have hc : c.container.classes.toList = c.placedClasses.map c.classDef := rfl
  rw [hc, Run.outcome_each_eq_ok_iff, List.forall₂_map_left_iff, List.forall₂_map_right_iff,
    List.forall₂_same]
  intro x hx
  exact h.outcome_classListing hb hx

theorem outcome_decode (h : Regions c b) (hv : c.Valid) (hb : b.size < 2 ^ 32) (o : Options)
    (pool : WorkerPool) : (Container.decode b o pool).outcome = .ok c.container :=
  (Container.decode_eq_ok_iff_of_framed (h.framed hb)).2 (h.describes hv hb)

theorem outcome_disassemble (h : Regions c b) (hv : c.Valid) (hb : b.size < 2 ^ 32) (o : Options)
    (pool : WorkerPool) : (disassemble b o pool).outcome = .ok c.listing := by
  rw [DexListing.outcome_disassemble, h.outcome_decode hv hb]
  simp only [bind, Except.bind, h.outcome_classes hb, c.version_header]
  rfl

end Regions

theorem size_encode (h : c.Valid) : (encode c).toArray.size < 2 ^ 32 := by
  simpa [UInt32.size] using h.size

/-- Decoding a laid out container gives back what was laid out, and its listing has one line for
each code unit, at the place of the unit. -/
theorem decode_disassemble_encode (c : Contents) (h : c.Valid) (o : Options)
    (pool : WorkerPool) :
    (Container.decode (encode c).toArray o pool).outcome = .ok c.container ∧
      (disassemble (encode c).toArray o pool).outcome = .ok c.listing ∧
      ∀ x ∈ c.placedClasses, ∀ item, x.1.code = some item → 4 ∣ x.2 ∧
        ∀ k, (hk : k < item.units.length) →
          (UInt32.ofNat (unitAt x.2 k)).toNat = unitAt x.2 k ∧
            Holds (encode c).toArray (unitAt x.2 k) (unitBytes item.units[k]) := by
  have hr := regions_encode c
  have hb := size_encode h
  refine ⟨hr.outcome_decode h hb o pool, hr.outcome_disassemble h hb o pool, ?_⟩
  intro x hx item hi
  obtain ⟨_, ha, hs⟩ := codeStands_of_mem_placeCode hr.code hx hi
  refine ⟨ha, fun k hk => ?_⟩
  have hu := holds_units hs hk
  have hle := hu.le
  exact ⟨by rw [UInt32.toNat_ofNat', Nat.mod_eq_of_lt (by omega)], hu⟩

def sample : Contents where
  strings := [⟨"LMain;", .standard⟩, ⟨"né\x00😀", .modified⟩, ⟨"", .standard⟩]
  types := [0]
  fields := [⟨0, 0, 1⟩]
  methods := [⟨0, 7, 1⟩]
  classes :=
    [⟨0, ⟨1⟩, none, some 1, some ⟨1, 1, 0, 0, 0, [⟨0x1A, 0x01⟩, ⟨0xFF, 0x00⟩, ⟨0x0E, 0x00⟩]⟩⟩,
      ⟨0, ⟨0⟩, some 0, none, none⟩]

theorem valid_sample : sample.Valid where
  types := by simp [sample]
  fields := by simp [sample]
  methods := by simp [sample]
  classes := by simp [sample]
  size := by decide +kernel

theorem outcome_disassemble_sample (o : Options) (pool : WorkerPool) :
    (disassemble (encode sample).toArray o pool).outcome = .ok sample.listing :=
  (regions_encode sample).outcome_disassemble valid_sample (size_encode valid_sample) o pool

theorem decode_disassemble_sample :
    sample.Valid ∧
      (Container.decode (encode sample).toArray {} (.cutAt 1)).outcome = .ok sample.container ∧
      (disassemble (encode sample).toArray {} (.cutAt 1)).outcome = .ok
        ⟨some 35,
          [⟨"LMain;", none, some "né\x00😀",
            [⟨0xF4, "v1 = \"né\x00😀\";"⟩, ⟨0xF6, "// Unknown opcode: 0xff"⟩, ⟨0xF8, "return;"⟩]⟩,
          ⟨"LMain;", some "LMain;", none, []⟩]⟩ := by
  obtain ⟨hd, hl, _⟩ := decode_disassemble_encode sample valid_sample {} (.cutAt 1)
  refine ⟨valid_sample, hd, hl.trans (congrArg Except.ok ?_)⟩
  decide +kernel

end Layout

end DexListing
