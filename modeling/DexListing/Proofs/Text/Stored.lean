import DexListing.Proofs.Bytes.Varint
import DexListing.Proofs.Outcome
import DexListing.StringTable

namespace DexListing

namespace Text

def StoredAt (b : Bytes) (p : Nat) (t : Text) : Prop :=
  ∃ k < 5, Varint.EndsAfter b p k ∧
    p + k + 1 + Varint.total b p k % 2 ^ 32 ≤ b.size ∧
    t = decode (window b (p + k + 1) (Varint.total b p k % 2 ^ 32)).toList

theorem read_eq_ok_iff {b : Bytes} {p : Nat} {t : Text} :
    read b p = .ok t ↔ StoredAt b p t := by
  rw [read]
  constructor
  · intro h
    split at h
    next => cases h
    next v start hv =>
      obtain ⟨k, hk, he, rfl, rfl⟩ := Varint.decode_eq_ok_iff.1 hv
      obtain ⟨w, hw, rfl⟩ := map_eq_ok_iff.1 h
      have hs := (slice_eq_ok_iff.1 hw).1
      rw [slice_of_le hs] at hw
      cases hw
      rw [UInt32.toNat_ofNat'] at hs
      exact ⟨k, hk, he, hs, by rw [UInt32.toNat_ofNat']⟩
  · rintro ⟨k, hk, he, hs, rfl⟩
    rw [Varint.decode_eq_ok_iff.2 ⟨k, hk, he, rfl, rfl⟩]
    change (slice b (p + k + 1) (UInt32.ofNat (Varint.total b p k)).toNat).map _ = _
    rw [UInt32.toNat_ofNat', slice_of_le hs]
    rfl

theorem read_error {b : Bytes} {p : Nat} {e : Error} (h : read b p = .error e) :
    e.places = [] ∧ (e.kind = .bufferBounds ∨ e.kind = .malformedVarint) := by
  rw [read] at h
  split at h
  next d hd =>
    cases h
    rcases Varint.decode_error hd with ⟨_, rfl⟩ | ⟨_, rfl⟩
    · exact ⟨rfl, .inr rfl⟩
    · exact ⟨rfl, .inl rfl⟩
  next count start _ =>
    cases hs : slice b start count.toNat with
    | ok w => simp [hs, Except.map] at h
    | error d =>
        obtain ⟨_, rfl⟩ := slice_eq_error_iff.1 hs
        simp only [hs, Except.map, Except.error.injEq] at h
        exact h ▸ ⟨rfl, .inl rfl⟩

end Text

end DexListing
