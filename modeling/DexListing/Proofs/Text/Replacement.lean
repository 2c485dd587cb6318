import DexListing.Proofs.Text.Codec
import Mathlib.Data.List.Basic

namespace DexListing.Text.Lossy

def Continues (low high : UInt8) : List UInt8 → Prop
  | [] => True
  | x :: rest => low ≤ x ∧ x ≤ high ∧ Continues 0x80 0xBF rest

def value (code : Nat) (tail : List UInt8) : Nat :=
  tail.foldl (fun code x => code * 64 + (x.toNat - 0x80)) code

theorem value_nil (code : Nat) : value code [] = code :=
  List.foldl_nil

theorem value_cons (code : Nat) (x : UInt8) (rest : List UInt8) :
    value code (x :: rest) = value (code * 64 + (x.toNat - 0x80)) rest :=
  List.foldl_cons ..

/-- Whatever continues the bytes read so far in the way the state asks for, the whole is the
standard encoding of the char that the state is about to give. -/
def Awaits (read : List UInt8) : State → Prop
  | .start => read = []
  | .inside missing low high code =>
    0 < missing ∧ ∀ tail, tail.length = missing → Continues low high tail →
      read ++ tail = String.utf8EncodeChar (Char.ofNat (value code tail))

theorem toNat_ofNat {n : Nat} (h : n.isValidChar) : (Char.ofNat n).toNat = n := by
  rw [Char.ofNat, dif_pos h]
  rfl

theorem eq_ofNat_iff {x : UInt8} {n : Nat} : x = UInt8.ofNat n ↔ x.toNat = n % 256 := by
  rw [← UInt8.toNat_inj, UInt8.toNat_ofNat']

theorem awaits_one {x : UInt8} (h : 0xC2 ≤ x) (h' : x < 0xE0) :
    Awaits [x] (.inside 1 0x80 0xBF (x.toNat - 0xC0)) := by
  refine ⟨by decide, fun tail ht hc => ?_⟩
  obtain ⟨y, rfl⟩ := List.length_eq_one_iff.1 ht
  obtain ⟨hl, hh, _⟩ := hc
  simp only [UInt8.le_iff_toNat_le, UInt8.lt_iff_toNat_lt, UInt8.reduceToNat] at h h' hl hh
  simp only [value_cons, value_nil]
  have hv : ((x.toNat - 0xC0) * 64 + (y.toNat - 0x80)).isValidChar := .inl (by omega)
  rw [String.utf8EncodeChar, Char.toNat_val, toNat_ofNat hv, if_neg (by omega), if_pos (by omega)]
  simp only [List.cons_append, List.nil_append, List.cons.injEq, eq_ofNat_iff, and_true]
  omega

theorem of_narrowed {x y first last low high : UInt8} (hl : 0x80 ≤ low) (hh : high ≤ 0xBF)
    (hy : (if x = first then low else 0x80) ≤ y) (hy' : y ≤ if x = last then high else 0xBF) :
    (x.toNat = first.toNat → low.toNat ≤ y.toNat) ∧
      (x.toNat = last.toNat → y.toNat ≤ high.toNat) ∧ 0x80 ≤ y.toNat ∧ y.toNat ≤ 0xBF := by
  rw [UInt8.toNat_inj, UInt8.toNat_inj]
  simp only [UInt8.le_iff_toNat_le] at hl hh hy hy'
  split at hy <;> split at hy' <;> simp_all <;> omega

theorem awaits_two {x : UInt8} (h : 0xE0 ≤ x) (h' : x < 0xF0) :
    Awaits [x] (.inside 2 (if x = 0xE0 then 0xA0 else 0x80) (if x = 0xED then 0x9F else 0xBF)
      (x.toNat - 0xE0)) := by
  refine ⟨by decide, fun tail ht hc => ?_⟩
  obtain ⟨y, z, rfl⟩ := List.length_eq_two.1 ht
  obtain ⟨hy, hy', hz, hz', _⟩ := hc
  obtain ⟨hlow, hhigh, hy, hy'⟩ := of_narrowed (by decide) (by decide) hy hy'
  simp only [UInt8.le_iff_toNat_le, UInt8.lt_iff_toNat_lt, UInt8.reduceToNat] at *
  simp only [value_cons, value_nil]
  have hv : (((x.toNat - 0xE0) * 64 + (y.toNat - 0x80)) * 64 + (z.toNat - 0x80)).isValidChar := by
    simp only [Nat.isValidChar]
    omega
  rw [String.utf8EncodeChar, Char.toNat_val, toNat_ofNat hv, if_neg (by omega), if_neg (by omega),
    if_pos (by omega)]
  simp only [List.cons_append, List.nil_append, List.cons.injEq, eq_ofNat_iff, and_true]
  omega

theorem awaits_three {x : UInt8} (h : 0xF0 ≤ x) (h' : x < 0xF5) :
    Awaits [x] (.inside 3 (if x = 0xF0 then 0x90 else 0x80) (if x = 0xF4 then 0x8F else 0xBF)
      (x.toNat - 0xF0)) := by
  refine ⟨by decide, fun tail ht hc => ?_⟩
  obtain ⟨y, z, w, rfl⟩ := List.length_eq_three.1 ht
  obtain ⟨hy, hy', hz, hz', hw, hw', _⟩ := hc
  obtain ⟨hlow, hhigh, hy, hy'⟩ := of_narrowed (by decide) (by decide) hy hy'
  simp only [UInt8.le_iff_toNat_le, UInt8.lt_iff_toNat_lt, UInt8.reduceToNat] at *
  simp only [value_cons, value_nil]
  have hv : ((((x.toNat - 0xF0) * 64 + (y.toNat - 0x80)) * 64 + (z.toNat - 0x80)) * 64 +
      (w.toNat - 0x80)).isValidChar := .inr (by omega)
  rw [String.utf8EncodeChar, Char.toNat_val, toNat_ofNat hv, if_neg (by omega), if_neg (by omega),
    if_neg (by omega)]
  simp only [List.cons_append, List.nil_append, List.cons.injEq, eq_ofNat_iff, and_true]
  omega

def Emits (bytes : List UInt8) (given : List Char × State) : Prop :=
  ∃ read, bytes = given.1.flatMap String.utf8EncodeChar ++ read ∧ Awaits read given.2

theorem emits_lead (x : UInt8) : (lead x).1 = [replacement] ∨ Emits [x] (lead x) := by
  unfold lead
  split
  next h1 =>
    have hx : x.toNat < 0x80 := UInt8.lt_iff_toNat_lt.1 h1
    refine .inr ⟨[], ?_, rfl⟩
    rw [List.append_nil, List.flatMap_singleton, String.utf8EncodeChar, Char.toNat_val,
      toNat_ofNat (.inl (by omega)), if_pos (by omega), UInt8.ofNat_toNat]
  next =>
    split
    next => exact .inl rfl
    next h2 =>
      split
      next h3 => exact .inr ⟨[x], rfl, awaits_one (UInt8.not_lt.1 h2) h3⟩
      next h3 =>
        split
        next h4 => exact .inr ⟨[x], rfl, awaits_two (UInt8.not_lt.1 h3) h4⟩
        next h4 =>
          split
          next h5 => exact .inr ⟨[x], rfl, awaits_three (UInt8.not_lt.1 h4) h5⟩
          next => exact .inl rfl

theorem emits_step {read : List UInt8} {s : State} {x : UInt8} (hs : Awaits read s)
    (h : replacement ∉ (step s x).1) : Emits (read ++ [x]) (step s x) := by
  cases s with
  | start =>
      cases hs
      rcases emits_lead x with hr | hg
      · rw [step, hr] at h
        exact absurd (List.mem_singleton_self _) h
      · exact hg
  | inside missing low high code =>
      obtain ⟨hm, ht⟩ := hs
      rw [step] at h ⊢
      split at h
      next hx =>
        rw [if_pos hx]
        obtain ⟨hl, hh⟩ : low ≤ x ∧ x ≤ high := by simpa using hx
        by_cases h1 : missing ≤ 1
        · have he := ht [x] (by simp; omega) ⟨hl, hh, trivial⟩
          rw [value_cons, value_nil] at he
          refine ⟨[], ?_, ?_⟩
          · simpa [h1] using he
          · simp [h1, Awaits]
        · refine ⟨read ++ [x], by simp [h1], ?_⟩
          simp only [if_neg h1]
          refine ⟨by omega, fun tail hn hc => ?_⟩
          have he := ht (x :: tail) (by simp; omega) ⟨hl, hh, hc⟩
          rw [value_cons] at he
          rw [List.append_assoc]
          exact he
      next => exact absurd List.mem_cons_self h

theorem flatMap_run {read rest : List UInt8} {s : State} (hs : Awaits read s)
    (h : replacement ∉ run s rest) :
    (run s rest).flatMap String.utf8EncodeChar = read ++ rest := by
  -- the state carries the bytes of the char that is not complete yet
  induction rest generalizing read s with
  | nil =>
      cases s with
      | start =>
          cases hs
          rfl
      | inside => simp [run] at h
  | cons x rest ih =>
      have hr : run s (x :: rest) = (step s x).1 ++ run (step s x).2 rest := by
        cases s <;> rfl
      rw [hr, List.mem_append, not_or] at h
      obtain ⟨next, he, hn⟩ := emits_step hs h.1
      rw [hr, List.flatMap_append, ih hn h.2, ← List.append_assoc, ← he, List.append_assoc]
      rfl

theorem flatMap_decode {bytes : List UInt8} (h : replacement ∉ decode bytes) :
    (decode bytes).flatMap String.utf8EncodeChar = bytes := by
  have hs : Awaits [] .start := rfl
  exact flatMap_run hs h

end DexListing.Text.Lossy
