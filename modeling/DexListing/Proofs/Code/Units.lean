import DexListing.Listing
import DexListing.Proofs.Bytes.Word
import DexListing.Proofs.Outcome

namespace DexListing.Code

def unitsAt (b : Bytes) (start n : Nat) : List PlacedUnit :=
  List.ofFn fun k : Fin n =>
    ⟨start + 2 * k, ⟨byteAt b (start + 2 * k), byteAt b (start + 2 * k + 1)⟩⟩

def unitCount (b : Bytes) (offset : UInt32) : Nat :=
  (word32At b (offset.toNat + 12)).toNat

theorem unitAt_of_le {b : Bytes} {p : Nat} (h : p + 2 ≤ b.size) :
    unitAt b p = .ok ⟨p, ⟨byteAt b p, byteAt b (p + 1)⟩⟩ := by
  rw [unitAt, slice_of_le h]
  simp [Except.map, getElem_window]

theorem collect_unitAt {b : Bytes} {start n : Nat} (h : start + 2 * n ≤ b.size) :
    collect n (fun k => unitAt b (start + 2 * k)) = .ok (unitsAt b start n).toArray := by
  have hn : (unitsAt b start n).toArray.size = n := by simp [unitsAt]
  refine collect_eq_ok_iff.2 ⟨hn, fun k hk => ?_⟩
  rw [hn] at hk
  rw [unitAt_of_le (by omega)]
  simp [unitsAt]

theorem unitsFrom_of_le {b : Bytes} {start n : Nat} (h : start + 2 * n ≤ b.size) :
    unitsFrom b start n = .ok (unitsAt b start n) := by
  rw [unitsFrom, ensure, if_pos h, collect_unitAt h]
  rfl

theorem unitsFrom_of_lt {b : Bytes} {start n : Nat} (h : b.size < start + 2 * n) :
    unitsFrom b start n = .error ⟨.outOfBounds (2 * n) start b.size, []⟩ := by
  rw [unitsFrom, ensure, if_neg (Nat.not_le.2 h)]
  rfl

theorem units_zero (b : Bytes) : units b 0 = .ok [] := rfl

def unitsOf (b : Bytes) (offset : UInt32) : List PlacedUnit :=
  if offset = 0 then [] else unitsAt b (offset.toNat + 16) (unitCount b offset)

variable {b : Bytes} {offset : UInt32}

theorem units_of_short (h : offset ≠ 0) (hs : b.size < offset.toNat + 16) :
    units b offset =
      .error ⟨.outOfBounds 16 offset.toNat b.size, [.codeHeader offset]⟩ := by
  have hr : (CodeHeader.reader b offset.toNat).result =
      .error ⟨.outOfBounds 16 offset.toNat b.size, []⟩ := by
    rw [CodeHeader.reader, Reader.record_of_lt _ hs]
  simp [units, h, hr, within, Error.within, bind, Except.bind]

theorem units_of_prologue (h : offset ≠ 0) (hs : offset.toNat + 16 ≤ b.size) :
    units b offset = within (.instructions (offset.toNat + 16))
      (unitsFrom b (offset.toNat + 16) (unitCount b offset)) := by
  have hr : (CodeHeader.reader b offset.toNat).result =
      .ok (CodeHeader.parse (window b offset.toNat 16)) := by
    rw [CodeHeader.reader, Reader.record_of_le _ hs]
  have hu : (CodeHeader.parse (window b offset.toNat 16)).units = word32At b (offset.toNat + 12) :=
    u32_window ..
  simp [units, h, hr, hu, unitCount, within, bind, Except.bind]

theorem units_of_le (h : offset ≠ 0)
    (hs : offset.toNat + 16 + 2 * unitCount b offset ≤ b.size) :
    units b offset = .ok (unitsAt b (offset.toNat + 16) (unitCount b offset)) := by
  rw [units_of_prologue h (by omega), unitsFrom_of_le hs]
  rfl

theorem units_of_lt (h : offset ≠ 0) (hp : offset.toNat + 16 ≤ b.size)
    (hs : b.size < offset.toNat + 16 + 2 * unitCount b offset) :
    units b offset = .error
      ⟨.outOfBounds (2 * unitCount b offset) (offset.toNat + 16) b.size,
        [.instructions (offset.toNat + 16)]⟩ := by
  rw [units_of_prologue h hp, unitsFrom_of_lt hs]
  rfl

theorem eq_unitsOf {found : List PlacedUnit} (h : units b offset = .ok found) :
    found = unitsOf b offset := by
  rw [unitsOf]
  split
  next h0 =>
    rw [h0, units_zero, Except.ok.injEq] at h
    exact h.symm
  next h0 =>
    by_cases hp : offset.toNat + 16 ≤ b.size
    · by_cases hs : offset.toNat + 16 + 2 * unitCount b offset ≤ b.size
      · rw [units_of_le h0 hs, Except.ok.injEq] at h
        exact h.symm
      · rw [units_of_lt h0 hp (Nat.not_le.1 hs)] at h
        cases h
    · rw [units_of_short h0 (Nat.not_le.1 hp)] at h
      cases h

end DexListing.Code

namespace DexListing.Dalvik

theorem outcome_listing (b : Bytes) (offset : UInt32) (tables : Tables) :
    (listing b offset tables).outcome =
      (Code.units b offset).map fun found => (found.map (line tables)).map Resolved.value := by
  rw [listing_eq]
  simp only [Run.outcome_bind, Run.outcome_lift, Run.outcome_tellAll, Run.outcome_pure]
  cases Code.units b offset <;> rfl

theorem listing_of_error {b : Bytes} {offset : UInt32} {e : Error}
    (h : Code.units b offset = .error e) (tables : Tables) :
    listing b offset tables = ⟨.error e, []⟩ := by
  rw [listing_eq, h]
  rfl

theorem listing_of_ok {b : Bytes} {offset : UInt32} {found : List PlacedUnit}
    (h : Code.units b offset = .ok found) (tables : Tables) :
    listing b offset tables =
      ⟨.ok (found.map fun p => (line tables p).value),
        found.filterMap fun p => (line tables p).warning⟩ := by
  rw [listing_eq, h, Run.bind_of_ok (Run.outcome_lift _), Run.bind_of_ok (Run.outcome_tellAll _)]
  simp [List.filterMap_map, Function.comp_def]

end DexListing.Dalvik
