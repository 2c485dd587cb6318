import DexListing.Header
import DexListing.Proofs.Bytes.Word
import DexListing.Proofs.Outcome

namespace DexListing

def Table.headerPosition : Table → Nat
  | .strings => 56
  | .types => 64
  | .fields => 80
  | .methods => 88
  | .classes => 96

def extentAt (b : Bytes) (t : Table) : Extent :=
  ⟨word32At b t.headerPosition, word32At b (t.headerPosition + 4)⟩

def tableSize (b : Bytes) (t : Table) : Nat :=
  (extentAt b t).size.toNat

def entryAt (b : Bytes) (t : Table) (i : Nat) : Nat :=
  (extentAt b t).offset.toNat + t.width * i

def StartsWithMagic (b : Bytes) : Prop :=
  b[0]? = some 0x64 ∧ b[1]? = some 0x65 ∧ b[2]? = some 0x78 ∧ b[3]? = some 0x0A

def Extent.Inside (x : Extent) (t : Table) (b : Bytes) : Prop :=
  x.size.toNat = 0 ∨ x.offset.toNat + x.size.toNat * t.width ≤ b.size

structure Framed (b : Bytes) : Prop where
  magic : StartsWithMagic b
  header : headerSize ≤ b.size
  inside : ∀ t, (extentAt b t).Inside t b

theorem Extent.Inside.entry_le {b : Bytes} {x : Extent} {t : Table} (h : x.Inside t b) {i : Nat}
    (hi : i < x.size.toNat) : x.offset.toNat + t.width * i + t.width ≤ b.size := by
  rcases h with hz | hle
  · omega
  · have hm : t.width * i + t.width ≤ x.size.toNat * t.width := by
      rw [← Nat.mul_succ, Nat.mul_comm]
      exact Nat.mul_le_mul_right _ hi
    omega

theorem Framed.entry_le {b : Bytes} (h : Framed b) {t : Table} {i : Nat} (hi : i < tableSize b t) :
    entryAt b t i + t.width ≤ b.size :=
  (h.inside t).entry_le hi

instance (b : Bytes) : Decidable (StartsWithMagic b) :=
  inferInstanceAs (Decidable (_ ∧ _))

instance (x : Extent) (t : Table) (b : Bytes) : Decidable (x.Inside t b) :=
  inferInstanceAs (Decidable (_ ∨ _))

theorem extract_eq_magicStart_iff {b : Bytes} :
    b.extract 0 4 = Header.magicStart ↔ StartsWithMagic b := by
  have bytes (i : Nat) (hi : i < 4) : (b.extract 0 4)[i]? = b[i]? := by
    simp [Array.getElem?_extract]
    omega
  constructor
  · intro h
    have found (i : Nat) (hi : i < 4) : b[i]? = Header.magicStart[i]? := by
      rw [← bytes i hi, h]
    exact ⟨found 0 (by decide), found 1 (by decide), found 2 (by decide), found 3 (by decide)⟩
  · rintro ⟨h0, h1, h2, h3⟩
    apply Array.ext_getElem?
    intro i
    match i with
    | 0 => rw [bytes 0 (by decide), h0]; rfl
    | 1 => rw [bytes 1 (by decide), h1]; rfl
    | 2 => rw [bytes 2 (by decide), h2]; rfl
    | 3 => rw [bytes 3 (by decide), h3]; rfl
    | i + 4 =>
        have hs : (b.extract 0 4).size ≤ i + 4 := by
          rw [Array.size_extract]
          omega
        have hm : Header.magicStart.size ≤ i + 4 := Nat.le_add_left 4 i
        rw [Array.getElem?_eq_none hs, Array.getElem?_eq_none hm]

namespace Extent

variable {x : Extent} {t : Table} {b : Bytes}

theorem check_of_inside (h : x.Inside t b) : x.check t b = .ok () := by
  rw [check]
  split
  · rfl
  · next hz =>
      have hz : x.size.toNat ≠ 0 := fun h0 => hz (UInt32.toNat_inj.1 h0)
      have hle := h.resolve_left hz
      simp [ensure, hle, within]

theorem check_of_not_inside (h : ¬ x.Inside t b) :
    x.check t b = .error
      ⟨.outOfBounds (x.size.toNat * t.width) x.offset.toNat b.size, [.table t x.offset]⟩ := by
  rw [Inside] at h
  have hz : x.size ≠ 0 := fun h0 => h (.inl (by simp [h0]))
  have hle : ¬ x.offset.toNat + x.size.toNat * t.width ≤ b.size := fun hle => h (.inr hle)
  simp [check, hz, ensure, hle, fail, within, Error.within]

theorem inside_of_check {u : Unit} (h : x.check t b = .ok u) : x.Inside t b := by
  by_cases hx : x.Inside t b
  · exact hx
  · rw [check_of_not_inside hx] at h
    cases h

end Extent

namespace Header

def ofBytes (b : Bytes) : Header :=
  parse (window b 0 headerSize)

theorem extent_ofBytes (b : Bytes) (t : Table) : (ofBytes b).extent t = extentAt b t := by
  cases t <;> simp [ofBytes, parse, extent, extentAt, Table.headerPosition, u32_window]

theorem magic_ofBytes (b : Bytes) : (ofBytes b).magic = window b 0 8 := by
  apply Vector.ext
  intro i hi
  have hn : i < headerSize := Nat.lt_trans hi (by decide)
  simp [ofBytes, parse, getElem_window hi, getElem_window hn]

theorem read_of_framed {b : Bytes} (h : Framed b) : read b = .ok (ofBytes b) := by
  have hc : check (ofBytes b) b = .ok () := by
    have hx (t : Table) : ((ofBytes b).extent t).check t b = .ok () := by
      rw [extent_ofBytes]
      exact Extent.check_of_inside (h.inside t)
    have hs := hx .strings
    have ht := hx .types
    have hf := hx .fields
    have hm := hx .methods
    have hl := hx .classes
    simp only [extent] at hs ht hf hm hl
    simp [check, hs, ht, hf, hm, hl, bind, Except.bind]
  have hm := extract_eq_magicStart_iff.2 h.magic
  have hw : slice b 0 headerSize = .ok (window b 0 headerSize) := slice_of_le (by simpa using h.header)
  simp only [ofBytes] at hc
  simp [read, hm, hw, hc, Except.map, ofBytes]

theorem framed_of_read {b : Bytes} {h : Header} (hr : read b = .ok h) : Framed b := by
  rw [read] at hr
  split at hr
  · cases hr
  next hm =>
    split at hr
    next => cases hr
    next w hw =>
      have hle := (slice_eq_ok_iff.1 hw).1
      rw [slice_of_le hle, Except.ok.injEq] at hw
      subst hw
      obtain ⟨_, hc, rfl⟩ := map_eq_ok_iff.1 hr
      simp only [check, bind_eq_ok_iff] at hc
      obtain ⟨_, hs, _, ht, _, hf, _, hd, hl⟩ := hc
      refine ⟨extract_eq_magicStart_iff.1 (Classical.not_not.1 hm), by simpa using hle, fun t => ?_⟩
      rw [← extent_ofBytes]
      cases t with
      | strings => exact Extent.inside_of_check hs
      | types => exact Extent.inside_of_check ht
      | fields => exact Extent.inside_of_check hf
      | methods => exact Extent.inside_of_check hd
      | classes => exact Extent.inside_of_check hl

theorem read_eq_ok_iff {b : Bytes} {h : Header} : read b = .ok h ↔ Framed b ∧ h = ofBytes b := by
  constructor
  · intro hr
    have hf := framed_of_read hr
    rw [read_of_framed hf] at hr
    exact ⟨hf, (Except.ok.inj hr).symm⟩
  · rintro ⟨hf, rfl⟩
    exact read_of_framed hf

end Header

end DexListing
