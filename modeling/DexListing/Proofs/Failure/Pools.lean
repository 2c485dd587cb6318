import DexListing.Proofs.Failure.Header

namespace DexListing

variable {b : Bytes} {x : Extent} {threads : WorkerPool} {e : Error} {i : Nat}

def cutReport (b : Bytes) (p : Nat) : Report :=
  ⟨.bufferBounds, Fault.message (.outOfBounds 4 p b.size), []⟩

namespace StringTable

structure FirstCut (b : Bytes) (x : Extent) (i : Nat) : Prop where
  lt_size : i < x.size.toNat
  cut : b.size < x.offset.toNat + 4 * i + 4
  before : ∀ j < i, x.offset.toNat + 4 * j + 4 ≤ b.size

def Reads (b : Bytes) (x : Extent) (i : Nat) (t : Text) : Prop :=
  ∃ off, WordStands b (x.offset.toNat + 4 * i) off ∧ Text.read b off.toNat = .ok t

/-- The words are all there before a text counts. -/
inductive Decided (b : Bytes) (x : Extent) : Except Report (Array String) → Prop where
  | cut {i : Nat} : FirstCut b x i →
      Decided b x (.error (cutReport b (x.offset.toNat + 4 * i)))
  | text {i : Nat} {off : UInt32} {e : Error} : x.Inside .strings b → i < x.size.toNat →
      WordStands b (x.offset.toNat + 4 * i) off → Text.read b off.toNat = .error e →
      (∀ j < i, ∃ t, Reads b x j t) →
      Decided b x (.error ⟨e.kind, e.fault.message, [s!"string data at 0x{hex off.toNat}"]⟩)
  | whole {strings : Array String} : x.Inside .strings b → strings.size = x.size.toNat →
      (∀ i, (h : i < strings.size) → ∃ t, Reads b x i t ∧ t.value = strings[i]) →
      Decided b x (.ok strings)

theorem not_inside_iff :
    ¬ x.Inside .strings b ↔
      0 < x.size.toNat ∧ b.size < x.offset.toNat + 4 * x.size.toNat := by
  rw [Extent.Inside, Table.width]
  omega

theorem FirstCut.not_inside (first : FirstCut b x i) : ¬ x.Inside .strings b := by
  have lt_size := first.lt_size
  have cut := first.cut
  rw [not_inside_iff]
  omega

theorem exists_firstCut (cut : ¬ x.Inside .strings b) : ∃ i, FirstCut b x i := by
  rw [not_inside_iff] at cut
  refine ⟨(b.size - x.offset.toNat) / 4, ?_, ?_, fun j hj => ?_⟩ <;> omega

theorem outcome_decode_of_firstCut (first : FirstCut b x i) :
    (decode b x 1 threads).outcome =
      .error ⟨.outOfBounds 4 (x.offset.toNat + 4 * i) b.size, []⟩ := by
  have fails := collect_eq_error_iff.2 ⟨i, first.lt_size,
    Reader.word32_eq_error_iff.2 ⟨first.cut, rfl⟩,
    fun j hj => ⟨_, Reader.word32_of_le (first.before j hj)⟩⟩
  rw [decode_of_offsets_error fails]

theorem outcome_decode_of_one (inside : x.Inside .strings b) :
    (decode b x 1 threads).outcome =
      collect x.size.toNat fun i =>
        (entry b (word32At b (x.offset.toNat + 4 * i))).map Text.value := by
  refine outcome_decode_of_prefersLeft inside ?_
  rw [WorkerPool.split_of_le (Nat.le_refl 1)]
  trivial

theorem entry_word_eq_ok_iff (inside : x.Inside .strings b) (hi : i < x.size.toNat) {t : Text} :
    entry b (word32At b (x.offset.toNat + 4 * i)) = .ok t ↔ Reads b x i t := by
  have fits : x.offset.toNat + 4 * i + 4 ≤ b.size := inside.entry_le hi
  rw [entry, within_eq_ok_iff, Reads]
  constructor
  · exact fun read => ⟨_, wordStands_iff.2 ⟨fits, rfl⟩, read⟩
  · rintro ⟨off, stands, read⟩
    obtain ⟨-, rfl⟩ := wordStands_iff.1 stands
    exact read

theorem report_within {off : UInt32} (h : Text.read b off.toNat = .error e) :
    (e.within (.stringData off)).report =
      ⟨e.kind, e.fault.message, [s!"string data at 0x{hex off.toNat}"]⟩ := by
  rw [Error.within, (Text.read_error h).1]
  rfl

theorem Decided.reported_decode {r : Except Report (Array String)} (decided : Decided b x r) :
    reported (decode b x 1 threads).outcome = r := by
  cases decided with
  | cut first =>
      rw [outcome_decode_of_firstCut first]
      rfl
  | @text i off e inside hi stands fails before =>
      obtain ⟨-, rfl⟩ := wordStands_iff.1 stands
      have failed : entry b (word32At b (x.offset.toNat + 4 * i)) = _ :=
        within_eq_error_iff.2 ⟨e, fails, rfl⟩
      rw [outcome_decode_of_one inside, reported_eq_error_iff]
      refine ⟨_, collect_eq_error_iff.2 ⟨i, hi, map_eq_error_iff.2 failed, fun j hj => ?_⟩,
        report_within fails⟩
      obtain ⟨t, read⟩ := before j hj
      exact ⟨_, map_eq_ok_iff.2
        ⟨t, (entry_word_eq_ok_iff inside (Nat.lt_trans hj hi)).2 read, rfl⟩⟩
  | whole inside size reads =>
      rw [outcome_decode_of_one inside, reported_eq_ok_iff, collect_eq_ok_iff]
      refine ⟨size, fun i hi => ?_⟩
      obtain ⟨t, read, value⟩ := reads i hi
      exact map_eq_ok_iff.2 ⟨t, (entry_word_eq_ok_iff inside (size ▸ hi)).2 read, value⟩

theorem decided_reported_decode (b : Bytes) (x : Extent) (threads : WorkerPool) :
    Decided b x (reported (decode b x 1 threads).outcome) := by
  by_cases inside : x.Inside .strings b
  · rw [outcome_decode_of_one inside]
    cases found : collect x.size.toNat fun i =>
        (entry b (word32At b (x.offset.toNat + 4 * i))).map Text.value with
    | ok strings =>
        obtain ⟨size, values⟩ := collect_eq_ok_iff.1 found
        refine .whole inside size fun i hi => ?_
        obtain ⟨t, read, value⟩ := map_eq_ok_iff.1 (values i hi)
        exact ⟨t, (entry_word_eq_ok_iff inside (size ▸ hi)).1 read, value⟩
    | error e =>
        obtain ⟨i, hi, failed, before⟩ := collect_eq_error_iff.1 found
        obtain ⟨d, fails, rfl⟩ := within_eq_error_iff.1 (map_eq_error_iff.1 failed)
        have stands : WordStands b (x.offset.toNat + 4 * i) _ :=
          wordStands_iff.2 ⟨inside.entry_le hi, rfl⟩
        change Decided b x (.error (d.within _).report)
        rw [report_within fails]
        refine .text inside hi stands fails fun j hj => ?_
        obtain ⟨s, mapped⟩ := before j hj
        obtain ⟨t, read, -⟩ := map_eq_ok_iff.1 mapped
        exact ⟨t, (entry_word_eq_ok_iff inside (Nat.lt_trans hj hi)).1 read⟩
  · obtain ⟨i, first⟩ := exists_firstCut inside
    rw [outcome_decode_of_firstCut first]
    exact .cut first

theorem reported_decode_eq_iff {r : Except Report (Array String)} :
    reported (decode b x 1 threads).outcome = r ↔ Decided b x r :=
  ⟨fun h => h ▸ decided_reported_decode b x threads, Decided.reported_decode⟩

theorem exists_cut_iff :
    (∃ r, reported (decode b x 1 threads).outcome = .error r ∧ r.kind = .bufferBounds ∧
        r.contexts = []) ↔
      0 < x.size.toNat ∧ b.size < x.offset.toNat + 4 * x.size.toNat := by
  rw [← not_inside_iff]
  constructor
  · rintro ⟨r, failed, -, contexts⟩
    cases reported_decode_eq_iff.1 failed with
    | cut first => exact first.not_inside
    | text => cases contexts
  · intro outside
    obtain ⟨i, first⟩ := exists_firstCut outside
    exact ⟨_, (Decided.cut first).reported_decode, rfl, rfl⟩

end StringTable

namespace TypeTable

variable {pool : Array String}

def Names (b : Bytes) (x : Extent) (pool : Array String) (i : Nat) (s : String) : Prop :=
  ∃ id, WordStands b (x.offset.toNat + 4 * i) id ∧ pool[id.toNat]? = some s

/-- A word counts as soon as those before it name a string. -/
inductive Decided (b : Bytes) (x : Extent) (pool : Array String) :
    Except Report (Array String) → Prop where
  | cut {i : Nat} : i < x.size.toNat → b.size < x.offset.toNat + 4 * i + 4 →
      (∀ j < i, ∃ s, Names b x pool j s) →
      Decided b x pool (.error (cutReport b (x.offset.toNat + 4 * i)))
  | unresolved {i : Nat} {id : UInt32} : i < x.size.toNat →
      WordStands b (x.offset.toNat + 4 * i) id → pool.size ≤ id.toNat →
      (∀ j < i, ∃ s, Names b x pool j s) →
      Decided b x pool (.error ⟨.unresolvedIndex,
        Fault.message (.unresolved .strings id pool.size), [s!"type_id #{i}"]⟩)
  | whole {types : Array String} : types.size = x.size.toNat →
      (∀ i, (h : i < types.size) → Names b x pool i types[i]) → Decided b x pool (.ok types)

theorem entry_eq_ok_iff {s : String} : entry b x pool i = .ok s ↔ Names b x pool i s := by
  simp only [entry, bind_eq_ok_iff, Reader.word32_eq_ok_iff, within_eq_ok_iff, resolve_eq_ok_iff,
    Names]

theorem entry_eq_error_iff :
    entry b x pool i = .error e ↔
      (b.size < x.offset.toNat + 4 * i + 4 ∧
        e = ⟨.outOfBounds 4 (x.offset.toNat + 4 * i) b.size, []⟩) ∨
      ∃ id, WordStands b (x.offset.toNat + 4 * i) id ∧ pool.size ≤ id.toNat ∧
        e = ⟨.unresolved .strings id pool.size, [.entry .types i]⟩ := by
  simp only [entry, bind_eq_error_iff, Reader.word32_eq_ok_iff, Reader.word32_eq_error_iff,
    within_eq_error_iff, resolve_eq_error_iff]
  refine or_congr_right (exists_congr fun id => and_congr_right fun _ => ?_)
  constructor
  · rintro ⟨d, ⟨out, rfl⟩, rfl⟩
    exact ⟨out, rfl⟩
  · rintro ⟨out, rfl⟩
    exact ⟨_, ⟨out, rfl⟩, rfl⟩

theorem reported_decode_eq_iff {r : Except Report (Array String)} :
    reported (decode b x pool) = r ↔ Decided b x pool r := by
  cases r with
  | ok types =>
      rw [reported_eq_ok_iff, decode, collect_eq_ok_iff]
      simp only [entry_eq_ok_iff]
      constructor
      · rintro ⟨size, named⟩
        exact .whole size named
      · intro decided
        cases decided with
        | whole size named => exact ⟨size, named⟩
  | error report =>
      simp only [reported_eq_error_iff, decode, collect_eq_error_iff, entry_eq_ok_iff,
        entry_eq_error_iff]
      constructor
      · rintro ⟨e, ⟨i, hi, ⟨cut, rfl⟩ | ⟨id, stands, out, rfl⟩, before⟩, rfl⟩
        · exact .cut hi cut before
        · exact .unresolved hi stands out before
      · intro decided
        cases decided with
        | cut hi cut before => exact ⟨_, ⟨_, hi, .inl ⟨cut, rfl⟩, before⟩, rfl⟩
        | unresolved hi stands out before =>
            exact ⟨_, ⟨_, hi, .inr ⟨_, stands, out, rfl⟩, before⟩, rfl⟩

end TypeTable

theorem pools_decided_by_first_defect (b : Bytes) (x : Extent) (threads : WorkerPool)
    (pool : Array String) :
    (∀ r, reported (StringTable.decode b x 1 threads).outcome = r ↔ StringTable.Decided b x r) ∧
      ((∃ r, reported (StringTable.decode b x 1 threads).outcome = .error r ∧
          r.kind = .bufferBounds ∧ r.contexts = []) ↔
        0 < x.size.toNat ∧ b.size < x.offset.toNat + 4 * x.size.toNat) ∧
      ∀ r, reported (TypeTable.decode b x pool) = r ↔ TypeTable.Decided b x pool r :=
  ⟨fun _ => StringTable.reported_decode_eq_iff, StringTable.exists_cut_iff,
    fun _ => TypeTable.reported_decode_eq_iff⟩

-- The first word leads nowhere and the second is cut off: the phases decide which counts.
example : let b : Bytes := #[9, 0, 0, 0, 1]
    reported (StringTable.decode b ⟨2, 0⟩ 1 (.cutAt 1)).outcome =
        .error ⟨.bufferBounds, "read of 4 bytes at 0x4 exceeds buffer of 0x5 bytes", []⟩ ∧
      reported (TypeTable.decode b ⟨2, 0⟩ #["V"]) =
        .error ⟨.unresolvedIndex, "string index 9 out of range (strings.len=1)", ["type_id #0"]⟩ := by
  decide +kernel

end DexListing
