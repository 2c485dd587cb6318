import DexListing.Layout
import DexListing.Proofs.Failure.Check
import Mathlib.Order.WellFounded

namespace DexListing

def reported {α : Type} (r : Except Error α) : Except Report α :=
  r.mapError Error.report

theorem reported_eq_ok_iff {α : Type} {r : Except Error α} {a : α} :
    reported r = .ok a ↔ r = .ok a := by
  cases r <;> simp [reported, Except.mapError]

theorem reported_eq_error_iff {α : Type} {r : Except Error α} {report : Report} :
    reported r = .error report ↔ ∃ e, r = .error e ∧ e.report = report := by
  cases r <;> simp [reported, Except.mapError]

def Table.inOrder : List Table :=
  [.strings, .types, .fields, .methods, .classes]

theorem Table.exists_inOrder_split (t : Table) :
    ∃ before after, inOrder = before ++ t :: after ∧
      ∀ s ∈ before, s.headerPosition < t.headerPosition := by
  cases t with
  | strings => exact ⟨[], _, rfl, by decide⟩
  | types => exact ⟨[.strings], _, rfl, by decide⟩
  | fields => exact ⟨[.strings, .types], _, rfl, by decide⟩
  | methods => exact ⟨[.strings, .types, .fields], _, rfl, by decide⟩
  | classes => exact ⟨[.strings, .types, .fields, .methods], _, rfl, by decide⟩

theorem headerChecks_eq : headerChecks = .magic :: .length :: Table.inOrder.map .extent := rfl

namespace Header

structure Stands (h : Header) (b : Bytes) : Prop where
  magic : ∀ i, (hi : i < 8) → b[i]? = some h.magic[i]
  size : ∀ t, WordStands b t.headerPosition (h.extent t).size
  offset : ∀ t, WordStands b (t.headerPosition + 4) (h.extent t).offset

/-- The tables stand in the header in the order in which they are checked. -/
structure FirstOutside (h : Header) (b : Bytes) (t : Table) : Prop where
  outside : ¬ (h.extent t).Inside t b
  before : ∀ s : Table, s.headerPosition < t.headerPosition → (h.extent s).Inside s b

def outsideReport (x : Extent) (t : Table) (b : Bytes) : Report :=
  ⟨.bufferBounds, Fault.message (.outOfBounds (x.size.toNat * t.width) x.offset.toNat b.size),
    [s!"{t.sectionName} table at 0x{hex x.offset.toNat}"]⟩

inductive Decided (b : Bytes) : Except Report Header → Prop where
  | magic : ¬ StartsWithMagic b →
      Decided b (.error ⟨.dexFormat, Fault.message (.badMagic (b.toList.take 4)), []⟩)
  | short : StartsWithMagic b → b.size < headerSize →
      Decided b (.error ⟨.bufferBounds, Fault.message (.shortHeader b.size), []⟩)
  | table {h : Header} {t : Table} : StartsWithMagic b → headerSize ≤ b.size → h.Stands b →
      h.FirstOutside b t → Decided b (.error (outsideReport (h.extent t) t b))
  | whole {h : Header} : StartsWithMagic b → headerSize ≤ b.size → h.Stands b →
      (∀ t, (h.extent t).Inside t b) → Decided b (.ok h)

variable {b : Bytes} {h : Header} {t : Table}

theorem Stands.eq_ofBytes (stands : h.Stands b) : h = ofBytes b := by
  refine Container.eq_ofBytes_iff.2 ⟨?_, fun t => ?_⟩
  · apply Vector.ext
    intro i hi
    have found := stands.magic i hi
    rw [getElem_window hi, Nat.zero_add, byteAt, found]
    rfl
  · have size := (wordStands_iff.1 (stands.size t)).2
    have offset := (wordStands_iff.1 (stands.offset t)).2
    rw [extentAt, ← size, ← offset]

theorem headerPosition_le (t : Table) : t.headerPosition + 8 ≤ headerSize := by
  cases t <;> decide

theorem stands_ofBytes (long : headerSize ≤ b.size) : (ofBytes b).Stands b where
  magic := by
    intro i hi
    have eight : 8 ≤ headerSize := by decide
    rw [magic_ofBytes, getElem_window hi, Nat.zero_add]
    exact getElem?_eq_byteAt (by omega)
  size := by
    intro t
    have position := headerPosition_le t
    rw [extent_ofBytes]
    exact wordStands_iff.2 ⟨by omega, rfl⟩
  offset := by
    intro t
    have position := headerPosition_le t
    rw [extent_ofBytes]
    exact wordStands_iff.2 ⟨by omega, rfl⟩

theorem read_of_not_magic (start : ¬ StartsWithMagic b) :
    read b = .error ⟨.badMagic (b.extract 0 4).toList, []⟩ := by
  rw [← failure_eq_some_iff, failure_read, headerChecks, findSome?_cons_or, Check.error,
    if_neg start]
  rfl

theorem read_of_short (start : StartsWithMagic b) (short : b.size < headerSize) :
    read b = .error ⟨.shortHeader b.size, []⟩ := by
  rw [← failure_eq_some_iff, failure_read, headerChecks, findSome?_cons_or, findSome?_cons_or,
    Check.error, if_pos start, Check.error, if_neg (Nat.not_le.2 short)]
  rfl

theorem read_of_firstOutside (start : StartsWithMagic b) (long : headerSize ≤ b.size)
    (first : (ofBytes b).FirstOutside b t) :
    read b = .error ⟨.outOfBounds ((extentAt b t).size.toNat * t.width)
      (extentAt b t).offset.toNat b.size, [.table t (extentAt b t).offset]⟩ := by
  have outside := first.outside
  rw [extent_ofBytes] at outside
  have magic : Check.magic.error b = none := if_pos start
  have length : Check.length.error b = none := if_pos long
  have extent : (Check.extent t).error b = _ := if_neg outside
  obtain ⟨before, after, order, earlier⟩ := Table.exists_inOrder_split t
  have passes : (before.map Check.extent).findSome? (Check.error b) = none := by
    rw [List.findSome?_eq_none_iff]
    intro c member
    obtain ⟨s, hs, rfl⟩ := List.mem_map.1 member
    rw [Check.error, if_pos (extent_ofBytes b s ▸ first.before s (earlier s hs))]
  rw [← failure_eq_some_iff, failure_read, headerChecks_eq, order, List.map_append, List.map_cons,
    findSome?_cons_or, findSome?_cons_or, List.findSome?_append, findSome?_cons_or, magic, length,
    passes, extent]
  rfl

theorem exists_firstOutside (outside : ∃ t, ¬ (h.extent t).Inside t b) :
    ∃ t, h.FirstOutside b t := by
  obtain ⟨t, ht, first⟩ := WellFounded.has_min (measure Table.headerPosition).wf
    {t | ¬ (h.extent t).Inside t b} outside
  refine ⟨t, ht, fun s hs => ?_⟩
  by_contra hn
  exact first s hn hs

namespace Decided

theorem reported_read {r : Except Report Header} (decided : Decided b r) : reported (read b) = r := by
  cases decided with
  | magic start =>
      rw [read_of_not_magic start, Array.toList_extract]
      rfl
  | short start short =>
      rw [read_of_short start short]
      rfl
  | table start long stands first =>
      obtain rfl := stands.eq_ofBytes
      rw [read_of_firstOutside start long first, extent_ofBytes]
      rfl
  | whole start long stands inside =>
      obtain rfl := stands.eq_ofBytes
      have framed : Framed b := ⟨start, long, fun t => extent_ofBytes b t ▸ inside t⟩
      rw [read_of_framed framed]
      rfl

theorem exists_decided (b : Bytes) : ∃ r, Decided b r := by
  by_cases start : StartsWithMagic b
  · by_cases long : headerSize ≤ b.size
    · have stands := stands_ofBytes long
      by_cases inside : ∀ t, ((ofBytes b).extent t).Inside t b
      · exact ⟨_, .whole start long stands inside⟩
      · obtain ⟨t, first⟩ := exists_firstOutside (not_forall.1 inside)
        exact ⟨_, .table start long stands first⟩
    · exact ⟨_, .short start (Nat.not_le.1 long)⟩
  · exact ⟨_, .magic start⟩

theorem reported_read_eq_iff {r : Except Report Header} :
    reported (read b) = r ↔ Decided b r := by
  constructor
  · rintro rfl
    obtain ⟨r, decided⟩ := exists_decided b
    rw [decided.reported_read]
    exact decided
  · exact reported_read

variable {r : Report}

theorem kind_eq_dexFormat_iff (decided : Decided b (.error r)) :
    r.kind = .dexFormat ↔ ¬ StartsWithMagic b := by
  cases decided with
  | magic start => exact iff_of_true rfl start
  | short start _ => exact iff_of_false (by simp) (not_not.2 start)
  | table start _ _ _ => exact iff_of_false (by simp [outsideReport]) (not_not.2 start)

theorem kind_eq_bufferBounds_iff (decided : Decided b (.error r)) :
    r.kind = .bufferBounds ∧ r.contexts = [] ↔ StartsWithMagic b ∧ b.size < headerSize := by
  cases decided with
  | magic start => exact iff_of_false (by simp) fun h => start h.1
  | short start short => exact iff_of_true ⟨rfl, rfl⟩ ⟨start, short⟩
  | table _ long _ _ =>
      exact iff_of_false (by simp [outsideReport]) fun h => Nat.not_le.2 h.2 long

end Decided

theorem exists_dexFormat_iff :
    (∃ r, reported (read b) = .error r ∧ r.kind = .dexFormat) ↔ ¬ StartsWithMagic b := by
  constructor
  · rintro ⟨r, hr, kind⟩
    exact (Decided.reported_read_eq_iff.1 hr).kind_eq_dexFormat_iff.1 kind
  · intro start
    exact ⟨_, (Decided.magic start).reported_read, rfl⟩

theorem exists_short_iff :
    (∃ r, reported (read b) = .error r ∧ r.kind = .bufferBounds ∧ r.contexts = []) ↔
      StartsWithMagic b ∧ b.size < headerSize := by
  constructor
  · rintro ⟨r, hr, report⟩
    exact (Decided.reported_read_eq_iff.1 hr).kind_eq_bufferBounds_iff.1 report
  · rintro ⟨start, short⟩
    exact ⟨_, (Decided.short start short).reported_read, rfl, rfl⟩

section Edge

variable (start : StartsWithMagic b) (long : headerSize ≤ b.size) (stands : h.Stands b)
  (others : ∀ s, s ≠ t → (h.extent s).Inside s b)

include start long stands others

theorem read_of_others_inside (inside : (h.extent t).Inside t b) : read b = .ok h := by
  refine reported_eq_ok_iff.1 (Decided.whole start long stands fun s => ?_).reported_read
  by_cases hs : s = t
  · exact hs ▸ inside
  · exact others s hs

theorem reported_read_of_others_inside (outside : ¬ (h.extent t).Inside t b) :
    reported (read b) = .error (outsideReport (h.extent t) t b) := by
  refine (Decided.table start long stands ⟨outside, fun s hs => ?_⟩).reported_read
  exact others s fun same => Nat.lt_irrefl _ (same ▸ hs)

end Edge

/-- A header is refused for its magic, then for its length, then for the first table that leaves
the buffer. Of one table that is nowhere, up to the end and one byte past it, only the last is
refused. -/
theorem read_decided_by_first_defect (b : Bytes) :
    (∀ r, reported (read b) = r ↔ Decided b r) ∧
      ((∃ r, reported (read b) = .error r ∧ r.kind = .dexFormat) ↔ ¬ StartsWithMagic b) ∧
      ((∃ r, reported (read b) = .error r ∧ r.kind = .bufferBounds ∧ r.contexts = []) ↔
        StartsWithMagic b ∧ b.size < headerSize) ∧
      ∀ (h : Header) (t : Table), StartsWithMagic b → headerSize ≤ b.size → h.Stands b →
        (∀ s, s ≠ t → (h.extent s).Inside s b) →
        ((h.extent t).size = 0 → read b = .ok h) ∧
          ((h.extent t).offset.toNat + (h.extent t).size.toNat * t.width = b.size →
            read b = .ok h) ∧
          ((h.extent t).size ≠ 0 →
            (h.extent t).offset.toNat + (h.extent t).size.toNat * t.width = b.size + 1 →
            reported (read b) = .error (outsideReport (h.extent t) t b)) := by
  refine ⟨fun r => Decided.reported_read_eq_iff, exists_dexFormat_iff, exists_short_iff, ?_⟩
  intro h t start long stands others
  refine ⟨fun empty => ?_, fun full => ?_, fun used past => ?_⟩
  · exact read_of_others_inside start long stands others (.inl (by simp [empty]))
  · exact read_of_others_inside start long stands others (.inr (Nat.le_of_eq full))
  · refine reported_read_of_others_inside start long stands others ?_
    rintro (empty | inside)
    · exact used (UInt32.toNat_inj.1 empty)
    · omega

def edge (classes : Extent) : Bytes :=
  (Layout.magic.toList ++ Layout.zeros 48 ++ Layout.extentBytes ⟨0, 0x100000⟩ ++
    Layout.extentBytes ⟨28, 0⟩ ++ Layout.zeros 8 ++ Layout.extentBytes ⟨14, 1⟩ ++
    Layout.extentBytes ⟨0, 0⟩ ++ Layout.extentBytes classes ++ Layout.zeros 8).toArray

theorem read_decided_at_the_edge :
    let report : Report := ⟨.bufferBounds, "read of 112 bytes at 0x1 exceeds buffer of 0x70 bytes",
      ["field_ids table at 0x1"]⟩
    let many := edge ⟨0xFFFFFFFF, 0xFFFFFFFF⟩
    let one := edge ⟨0, 0⟩
    let h := ofBytes one
    reported (read many) = .error report ∧
      StartsWithMagic one ∧ headerSize ≤ one.size ∧ h.Stands one ∧
      (∀ s, s ≠ .fields → (h.extent s).Inside s one) ∧ h.extent .fields = ⟨14, 1⟩ ∧
      reported (read one) = .error report := by
  intro report many one h
  have first : (ofBytes many).FirstOutside many .fields :=
    ⟨by decide +kernel, fun s => by cases s <;> decide +kernel⟩
  have start : StartsWithMagic many ∧ StartsWithMagic one := by decide +kernel
  have long : headerSize ≤ many.size ∧ headerSize ≤ one.size := by decide +kernel
  have others : ∀ s, s ≠ .fields → (h.extent s).Inside s one := by
    intro s
    cases s <;> decide +kernel
  have fields : h.extent .fields = ⟨14, 1⟩ := by decide +kernel
  obtain ⟨decided, -, -, -⟩ := read_decided_by_first_defect many
  obtain ⟨-, -, -, edge⟩ := read_decided_by_first_defect one
  refine ⟨?_, start.2, long.2, stands_ofBytes long.2, others, fields, ?_⟩
  · refine ((decided _).2 (.table start.1 long.1 (stands_ofBytes long.1) first)).trans ?_
    exact congrArg _ (by decide +kernel)
  · obtain ⟨-, -, past⟩ := edge h .fields start.2 long.2 (stands_ofBytes long.2) others
    refine (past (by decide +kernel) (by decide +kernel)).trans ?_
    exact congrArg _ (by decide +kernel)

end Header

end DexListing
