import DexListing.Proofs.Bytes.Varint
import Mathlib.Tactic.IntervalCases

namespace DexListing.Varint

variable {b b' : Bytes} {o k n p : Nat} {e : Error}

theorem Continues.not_endsAfter (h : Continues b p n) (hk : k < n) : ¬ EndsAfter b p k := by
  rintro ⟨_, hx, _⟩
  exact UInt8.not_le.2 hx (h k hk).2

theorem not_continues_of_lt (hn : 0 < n) (h : b.size < p + n) : ¬ Continues b p n := by
  intro hc
  have := (hc (n - 1) (by omega)).1
  omega

theorem decode_cases (b : Bytes) (o : Nat) :
    (∃ k < 5, EndsAfter b o k ∧
        decode b o = .ok (UInt32.ofNat (total b o k), o + k + 1)) ∨
      (Continues b o 5 ∧ decode b o = .error ⟨.overlongVarint o, []⟩) ∨
      (¬ Continues b o 5 ∧ decode b o = .error ⟨.unfinishedVarint (max o b.size), []⟩) := by
  cases h : decode b o with
  | ok r =>
      obtain ⟨k, hk, he, hv, hn⟩ := decode_eq_ok_iff.1 h
      exact .inl ⟨k, hk, he, by rw [← hv, ← hn]⟩
  | error e =>
      rcases decode_error h with ⟨hc, rfl⟩ | ⟨hs, rfl⟩
      · exact .inr (.inl ⟨hc, rfl⟩)
      · exact .inr (.inr ⟨not_continues_of_lt (by decide) hs, rfl⟩)

theorem malformed_iff :
    (∃ e, decode b o = .error e ∧ e.kind = .malformedVarint) ↔ Continues b o 5 := by
  rcases decode_cases b o with ⟨k, hk, he, h⟩ | ⟨hc, h⟩ | ⟨hc, h⟩
  · have hc : ¬ Continues b o 5 := fun hc => hc.not_endsAfter hk he
    simp [h, hc]
  · simp only [hc, iff_true]
    exact ⟨_, h, rfl⟩
  · simp only [hc, iff_false, h]
    rintro ⟨e, he, hk⟩
    cases he
    cases hk

theorem ranOut_iff :
    (∃ e, decode b o = .error e ∧ e.kind = .bufferBounds) ↔
      (∀ k < 5, ¬ EndsAfter b o k) ∧ ¬ Continues b o 5 := by
  rcases decode_cases b o with ⟨k, hk, he, h⟩ | ⟨hc, h⟩ | ⟨hc, h⟩
  · have hn : ¬ ∀ k < 5, ¬ EndsAfter b o k := fun hn => hn k hk he
    simp [h, hn]
  · simp only [hc, not_true_eq_false, and_false, iff_false, h]
    rintro ⟨e, he, hk⟩
    cases he
    cases hk
  · have hn : ∀ k < 5, ¬ EndsAfter b o k := by
      intro k hk he
      rw [decode_eq_ok_iff.2 ⟨k, hk, he, rfl, rfl⟩] at h
      cases h
    simp only [hc, not_false_eq_true, and_true]
    exact ⟨fun _ => hn, fun _ => ⟨_, h, rfl⟩⟩

theorem report_of_error (h : decode b o = .error e) :
    e.report = ⟨.malformedVarint, s!"uleb128 at 0x{hex o} exceeds 5 bytes", []⟩ ∨
      e.report = ⟨.bufferBounds,
        s!"unexpected end of stream reading uleb128 at 0x{hex (max o b.size)}", []⟩ := by
  rcases decode_error h with ⟨_, rfl⟩ | ⟨_, rfl⟩
  · exact .inl rfl
  · exact .inr rfl

theorem accumulate_congr {start left : Nat} {shift value : UInt32}
    (h : ∀ q, p ≤ q → q < p + left → b'[q]? = b[q]?) :
    accumulate b' start left p shift value = accumulate b start left p shift value := by
  induction left generalizing p shift value with
  | zero => rfl
  | succ left ih =>
      have rest : ∀ q, p + 1 ≤ q → q < p + 1 + left → b'[q]? = b[q]? := by
        intro q hl hq
        exact h q (by omega) (by omega)
      rw [accumulate, accumulate, h p (Nat.le_refl p) (by omega)]
      cases b[p]? with
      | none => rfl
      | some x =>
          dsimp only
          split
          next => rfl
          next => exact ih rest

/-- What is decoded at a position is settled by the five bytes from there on, and by how many of
them there are. -/
theorem decode_accepts_grammar (b : Bytes) (o : Nat) :
    (∀ v stop, decode b o = .ok (v, stop) ↔
      ∃ k < 5, EndsAfter b o k ∧ v.toNat = total b o k % 2 ^ 32 ∧ stop = o + k + 1) ∧
      ((∃ e, decode b o = .error e ∧ e.kind = .malformedVarint) ↔ Continues b o 5) ∧
      ((∃ e, decode b o = .error e ∧ e.kind = .bufferBounds) ↔
        (∀ k < 5, ¬ EndsAfter b o k) ∧ ¬ Continues b o 5) ∧
      (∀ e, decode b o = .error e →
        e.report = ⟨.malformedVarint, s!"uleb128 at 0x{hex o} exceeds 5 bytes", []⟩ ∨
          e.report = ⟨.bufferBounds,
            s!"unexpected end of stream reading uleb128 at 0x{hex (max o b.size)}", []⟩) ∧
      ∀ b' : Bytes, (∀ p, o ≤ p → p < o + 5 → b'[p]? = b[p]?) → decode b' o = decode b o := by
  refine ⟨fun v stop => ?_, malformed_iff, ranOut_iff, fun e => report_of_error,
    fun b' => accumulate_congr⟩
  have value (k : Nat) : v = UInt32.ofNat (total b o k) ↔ v.toNat = total b o k % 2 ^ 32 := by
    rw [← UInt32.toNat_inj, UInt32.toNat_ofNat']
  simp only [decode_eq_ok_iff, value]

theorem decode_accepts_grammar_at_the_end :
    let b : Bytes := #[0x07, 0x80, 0x80, 0x80, 0x80, 0x80]
    let value : Bytes := #[0x07, 0xE5, 0x8E, 0x26, 0x80, 0x80, 0x80]
    (∃ e, decode b 1 = .error e ∧ e.kind = .malformedVarint) ∧
      (∃ e, decode b 2 = .error e ∧ e.report =
        ⟨.bufferBounds, "unexpected end of stream reading uleb128 at 0x6", []⟩) ∧
      decode value 1 = .ok (624485, 4) ∧
      decode #[0xFF, 0xE5, 0x8E, 0x26, 0x80, 0x80] 1 = decode value 1 := by
  intro b value
  obtain ⟨-, malformed, -, -, -⟩ := decode_accepts_grammar b 1
  obtain ⟨-, -, -, reports, -⟩ := decode_accepts_grammar b 2
  obtain ⟨accepts, -, -, -, window⟩ := decode_accepts_grammar value 1
  have ended : decode b 2 = .error ⟨.unfinishedVarint 6, []⟩ := by decide +kernel
  refine ⟨malformed.2 (by decide), ⟨_, ended, ?_⟩, ?_, window _ ?_⟩
  · rcases reports _ ended with h | h
    · exact absurd (congrArg Report.kind h) (by decide)
    · exact h.trans (by decide +kernel)
  · exact (accepts _ _).2 ⟨2, by decide, by decide, by decide, rfl⟩
  · intro p hl hp
    interval_cases p <;> rfl

end DexListing.Varint
