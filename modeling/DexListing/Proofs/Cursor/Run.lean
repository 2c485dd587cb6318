import DexListing.Cursor
import DexListing.Proofs.Bytes.Word

namespace DexListing

variable {α β : Type} {b : Buffer} {p q n : UInt64}

theorem Buffer.toNat_add (h : p.toNat + n.toNat ≤ b.bytes.size) :
    (p + n).toNat = p.toNat + n.toNat := by
  rw [UInt64.toNat_add, Nat.mod_eq_of_lt (Nat.lt_of_le_of_lt h b.fits)]

theorem checkedAdd_any_iff :
    ((checkedAdd p n).any fun stop => stop.toNat ≤ b.bytes.size) = true ↔
      p.toNat + n.toNat ≤ b.bytes.size := by
  rw [checkedAdd]
  split
  next h => rw [Option.any_some, decide_eq_true_iff, UInt64.toNat_add, Nat.mod_eq_of_lt h]
  next h =>
    simp only [Option.any_none, Bool.false_eq_true, false_iff]
    exact fun fits => h (Nat.lt_of_le_of_lt fits b.fits)

namespace Cursor

theorem run_bind_of_ok {c : Cursor α} {a : α} (h : c.run b p = (.ok a, q))
    (f : α → Cursor β) : (c >>= f).run b p = (f a).run b q := by
  change (ExceptT.bindCont (fun a => f a b) (c.run b p).1).run (c.run b p).2 = _
  rw [h]
  rfl

theorem run_bind_of_error {c : Cursor α} {e : Error} (h : c.run b p = (.error e, q))
    (f : α → Cursor β) : (c >>= f).run b p = (.error e, q) := by
  change (ExceptT.bindCont (fun a => f a b) (c.run b p).1).run (c.run b p).2 = _
  rw [h]
  rfl

theorem run_pure (a : α) : (pure a : Cursor α).run b p = (.ok a, p) := rfl

theorem run_ofExcept (r : Except Error α) : (ofExcept r : Cursor α).run b p = (r, p) := by
  cases r <;> rfl

def Follows (c : Cursor α) (r : Reader α) : Prop :=
  ∀ b p, c.run b p = ((r b.bytes p.toNat).result, UInt64.ofNat (r b.bytes p.toNat).next)

theorem run_ensure (n : UInt64) :
    (ensure n).run b p = (DexListing.ensure b.bytes p.toNat n.toNat, p) := by
  change (if (checkedAdd p n).any (fun stop => stop.toNat ≤ b.bytes.size) then pure ()
    else ofExcept (fail (.outOfBounds n.toNat p.toNat b.bytes.size)) : Cursor Unit).run b p = _
  rw [DexListing.ensure]
  by_cases fits : p.toNat + n.toNat ≤ b.bytes.size
  · rw [if_pos (checkedAdd_any_iff.2 fits), if_pos fits, run_pure]
  · rw [if_neg (mt checkedAdd_any_iff.1 fits), if_neg fits, run_ofExcept]

theorem run_ensure_of_le (fits : p.toNat + n.toNat ≤ b.bytes.size) :
    (ensure n).run b p = (.ok (), p) := by
  rw [run_ensure, DexListing.ensure, if_pos fits]

theorem run_ensure_of_lt (short : b.bytes.size < p.toNat + n.toNat) :
    (ensure n).run b p = (.error ⟨.outOfBounds n.toNat p.toNat b.bytes.size, []⟩, p) := by
  rw [run_ensure, DexListing.ensure, if_neg (Nat.not_le.2 short)]
  rfl

theorem run_take_of_le (fits : p.toNat + n.toNat ≤ b.bytes.size) :
    (take n).run b p = (.ok (window b.bytes p.toNat n.toNat), p + n) := by
  rw [take, run_bind_of_ok (run_ensure_of_le fits)]
  change (ofExcept (slice b.bytes p.toNat n.toNat) >>= fun w => set (p + n) >>= fun _ =>
    pure w : Cursor _).run b p = _
  rw [slice_of_le fits, run_bind_of_ok (run_ofExcept _)]
  rfl

theorem run_take_of_lt (short : b.bytes.size < p.toNat + n.toNat) :
    (take n).run b p = (.error ⟨.outOfBounds n.toNat p.toNat b.bytes.size, []⟩, p) := by
  rw [take, run_bind_of_error (run_ensure_of_lt short)]

theorem run_record_of_le (parse : Vector UInt8 n.toNat → Except Error α)
    (fits : p.toNat + n.toNat ≤ b.bytes.size) :
    (record n parse).run b p = (parse (window b.bytes p.toNat n.toNat), p + n) := by
  rw [record, run_bind_of_ok (run_take_of_le fits), run_ofExcept]

theorem run_record_of_lt (parse : Vector UInt8 n.toNat → Except Error α)
    (short : b.bytes.size < p.toNat + n.toNat) :
    (record n parse).run b p =
      (.error ⟨.outOfBounds n.toNat p.toNat b.bytes.size, []⟩, p) := by
  rw [record, run_bind_of_error (run_take_of_lt short)]

theorem record_follows (n : UInt64) (parse : Vector UInt8 n.toNat → Except Error α) :
    Follows (record n parse) (Reader.record n.toNat parse) := by
  intro b p
  by_cases fits : p.toNat + n.toNat ≤ b.bytes.size
  · rw [run_record_of_le parse fits, Reader.record_of_le parse fits, UInt64.ofNat_add,
      UInt64.ofNat_toNat, UInt64.ofNat_toNat]
  · have short := Nat.not_le.1 fits
    rw [run_record_of_lt parse short, Reader.record_of_lt parse short, UInt64.ofNat_toNat]

theorem run_word16 (b : Buffer) {k : Nat} (hq : q.toNat = p.toNat + k)
    (fits : p.toNat + (k + 2) ≤ b.bytes.size) :
    word16.run b q = (.ok (word16At b.bytes (p.toNat + k)), q + 2) ∧
      (q + 2).toNat = p.toNat + (k + 2) := by
  rw [← Nat.add_assoc, ← hq] at fits ⊢
  rw [word16, run_record_of_le (n := 2) _ fits]
  exact ⟨congrArg (fun v => (Except.ok v, q + 2)) (u16_window b.bytes q.toNat 2 0 (by decide)),
    Buffer.toNat_add (n := 2) fits⟩

theorem run_word32 (b : Buffer) {k : Nat} (hq : q.toNat = p.toNat + k)
    (fits : p.toNat + (k + 4) ≤ b.bytes.size) :
    word32.run b q = (.ok (word32At b.bytes (p.toNat + k)), q + 4) ∧
      (q + 4).toNat = p.toNat + (k + 4) := by
  rw [← Nat.add_assoc, ← hq] at fits ⊢
  rw [word32, run_record_of_le (n := 4) _ fits]
  exact ⟨congrArg (fun v => (Except.ok v, q + 4)) (u32_window b.bytes q.toNat 4 0 (by decide)),
    Buffer.toNat_add (n := 4) fits⟩

/-- The one check is enough for the six reads after it. -/
theorem codeHeader_follows : Follows CodeHeader.cursor CodeHeader.reader := by
  intro b p
  by_cases fits : p.toNat + 16 ≤ b.bytes.size
  · obtain ⟨registers, h2⟩ := run_word16 b (p := p) (k := 0) rfl (by omega)
    obtain ⟨ins, h4⟩ := run_word16 b h2 (by omega)
    obtain ⟨outs, h6⟩ := run_word16 b h4 (by omega)
    obtain ⟨tries, h8⟩ := run_word16 b h6 (by omega)
    obtain ⟨debugInfo, h12⟩ := run_word32 b h8 (by omega)
    obtain ⟨units, h16⟩ := run_word32 b h12 (by omega)
    rw [CodeHeader.cursor, run_bind_of_ok (run_ensure_of_le (n := 16) fits),
      run_bind_of_ok registers, run_bind_of_ok ins, run_bind_of_ok outs, run_bind_of_ok tries,
      run_bind_of_ok debugInfo, run_bind_of_ok units, run_pure, CodeHeader.reader,
      Reader.record_of_le _ fits, ← h16, UInt64.ofNat_toNat]
    simp only [CodeHeader.parse, u16_window, u32_window]
  · have short := Nat.not_le.1 fits
    rw [CodeHeader.cursor, run_bind_of_error (run_ensure_of_lt (n := 16) short),
      CodeHeader.reader, Reader.record_of_lt _ short, UInt64.ofNat_toNat]
    rfl

theorem accumulate_eq {start : UInt64} {left : Nat} {shift value : UInt32} :
    accumulate b start left p shift value =
      (Varint.accumulate b.bytes start.toNat left p.toNat shift value).map
        fun r => (r.1, UInt64.ofNat r.2) := by
  induction left generalizing p shift value with
  | zero => rfl
  | succ left ih =>
      rw [accumulate, Varint.accumulate]
      cases h : b.bytes[p.toNat]? with
      | none => rfl
      | some x =>
          have fits : p.toNat + (1 : UInt64).toNat ≤ b.bytes.size :=
            (Array.getElem?_eq_some_iff.1 h).1
          have next : (p + 1).toNat = p.toNat + 1 := Buffer.toNat_add fits
          dsimp only
          split
          next => simp only [Except.map, ← next, UInt64.ofNat_toNat]
          next => rw [ih, next]

theorem varint_follows : Follows varint Reader.varint := by
  intro b p
  change (ofExcept (accumulate b p 5 p 0 0) >>= fun r => set r.2 >>= fun _ =>
    pure r.1 : Cursor UInt32).run b p = _
  rw [accumulate_eq, Reader.varint, Varint.decode]
  cases Varint.accumulate b.bytes p.toNat 5 p.toNat 0 0 with
  | error e =>
      rw [Except.map, run_bind_of_error (run_ofExcept _)]
      exact congrArg (Prod.mk _) UInt64.ofNat_toNat.symm
  | ok r =>
      rw [Except.map, run_bind_of_ok (run_ofExcept _)]
      rfl

end Cursor

end DexListing
