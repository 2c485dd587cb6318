import DexListing.Proofs.Cursor.Run
import DexListing.Proofs.Failure.Reference
import DexListing.Proofs.Footprint.Agreement
import DexListing.Proofs.Varint.Grammar

namespace DexListing

inductive Reading where
  | word16
  | word32
  | bytes (n : UInt64)
  | varint
  | codeHeader
  | field (pools : Pools)
  | method (pools : Pools)
  | classDef (pools : Pools)

namespace Reading

def Value : Reading → Type
  | word16 => UInt16
  | word32 => UInt32
  | bytes _ => List UInt8
  | varint => UInt32
  | codeHeader => CodeHeader
  | field _ => FieldRef
  | method _ => MethodRef
  | classDef _ => ClassDef

def cursor : (x : Reading) → Cursor x.Value
  | word16 => Cursor.word16
  | word32 => Cursor.word32
  | bytes n => Cursor.bytes n
  | varint => Cursor.varint
  | codeHeader => CodeHeader.cursor
  | field pools => FieldRef.cursor pools
  | method pools => MethodRef.cursor pools
  | classDef pools => ClassDef.cursor pools

def reader : (x : Reading) → Reader x.Value
  | word16 => Reader.word16
  | word32 => Reader.word32
  | bytes n => Reader.bytes n.toNat
  | varint => Reader.varint
  | codeHeader => CodeHeader.reader
  | field pools => FieldRef.reader pools
  | method pools => MethodRef.reader pools
  | classDef pools => ClassDef.reader pools

def width? : Reading → Option UInt64
  | word16 => some 2
  | word32 => some 4
  | bytes n => some n
  | varint => none
  | codeHeader => some 16
  | field _ => some 8
  | method _ => some 8
  | classDef _ => some 32

def IsRecord : Reading → Prop
  | field _ => True
  | method _ => True
  | classDef _ => True
  | _ => False

theorem cursor_follows (x : Reading) : x.cursor.Follows x.reader := by
  cases x with
  | word16 => exact Cursor.record_follows 2 _
  | word32 => exact Cursor.record_follows 4 _
  | bytes n => exact Cursor.record_follows n _
  | varint => exact Cursor.varint_follows
  | codeHeader => exact Cursor.codeHeader_follows
  | field pools => exact Cursor.record_follows 8 _
  | method pools => exact Cursor.record_follows 8 _
  | classDef pools => exact Cursor.record_follows 32 _

variable {x : Reading} {b : Buffer} {p q n : UInt64} {r : Except Error x.Value} {e : Error}

theorem exists_parse (hx : x.width? = some n) :
    ∃ parse : Vector UInt8 n.toNat → Except Error x.Value,
      x.reader = Reader.record n.toNat parse ∧
        ∀ b p e, parse (window b p n.toNat) = .error e →
          x.IsRecord ∧ e.kind = .unresolvedIndex := by
  cases x with
  | varint => cases hx
  | word16 | word32 | bytes | codeHeader =>
      cases hx
      refine ⟨_, rfl, fun b p e failed => ?_⟩
      cases failed
  | field pools =>
      cases hx
      exact ⟨_, rfl, fun b p e failed =>
        ⟨trivial, (FieldRef.looksUp_parse pools b p).kind_of_error failed⟩⟩
  | method pools =>
      cases hx
      exact ⟨_, rfl, fun b p e failed =>
        ⟨trivial, (MethodRef.looksUp_parse pools b p).kind_of_error failed⟩⟩
  | classDef pools =>
      cases hx
      exact ⟨_, rfl, fun b p e failed =>
        ⟨trivial, (ClassDef.looksUp_parse pools b p).kind_of_error failed⟩⟩

def Passes (x : Reading) (b : Bytes) (p q : Nat) : Prop :=
  match x.width? with
  | some n => q = p + n.toNat
  | none => ∃ k < 5, Varint.EndsAfter b p k ∧ q = p + k + 1

/-- The bytes are taken, though an index in those of a record may have no entry. -/
def Takes (x : Reading) (b : Buffer) (p : UInt64) : Prop :=
  (∃ v, (x.cursor.run b p).1 = .ok v) ∨
    x.IsRecord ∧ ∃ e, (x.cursor.run b p).1 = .error e ∧ e.kind = .unresolvedIndex

def SameBetween (p q : UInt64) (b b' : Buffer) : Prop :=
  q.toNat ≤ b'.bytes.size ∧ Span.Agree ⟨p.toNat, q.toNat⟩ b.bytes b'.bytes

/-- How a reading ends: past its bytes, which alone settle what it gives, or where it began. -/
inductive Ends (x : Reading) (b : Buffer) (p : UInt64) : Except Error x.Value → UInt64 → Prop
  | taken {r : Except Error x.Value} {q : UInt64} (onward : p ≤ q) (inside : q.toNat ≤ b.bytes.size)
      (passes : x.Passes b.bytes p.toNat q.toNat)
      (unresolved : ∀ e, r = .error e → x.IsRecord ∧ e.kind = .unresolvedIndex)
      (between : ∀ b', SameBetween p q b b' → x.cursor.run b' p = (r, q)) : Ends x b p r q
  | refused {e : Error} (kind : e.kind = .bufferBounds ∨ x = .varint ∧ e.kind = .malformedVarint)
      (short : ∀ n, x.width? = some n → b.bytes.size < p.toNat + n.toNat) : Ends x b p (.error e) p

theorem ends_of_width (hx : x.width? = some n) (b : Buffer) (p : UInt64) :
    x.Ends b p (x.cursor.run b p).1 (x.cursor.run b p).2 := by
  obtain ⟨parse, same, unresolved⟩ := exists_parse hx
  have inside (c : Buffer) (fits : p.toNat + n.toNat ≤ c.bytes.size) :
      x.cursor.run c p = (parse (window c.bytes p.toNat n.toNat), p + n) := by
    rw [x.cursor_follows, same, Reader.record_of_le parse fits, UInt64.ofNat_add,
      UInt64.ofNat_toNat, UInt64.ofNat_toNat]
  by_cases fits : p.toNat + n.toNat ≤ b.bytes.size
  · have next := Buffer.toNat_add fits
    rw [inside b fits]
    refine .taken ?_ ?_ ?_ (unresolved b.bytes p.toNat) ?_
    · rw [UInt64.le_iff_toNat_le, next]
      exact Nat.le_add_right ..
    · rwa [next]
    · rw [Passes, hx]
      exact next
    · rintro b' ⟨room, agree⟩
      rw [next] at room agree
      rw [inside b' room, agree.window (Nat.le_refl _) (Nat.le_refl _)]
  · have short := Nat.not_le.1 fits
    rw [x.cursor_follows, same, Reader.record_of_lt parse short, UInt64.ofNat_toNat]
    refine .refused (.inl rfl) fun m hm => ?_
    rw [hx] at hm
    cases hm
    exact short

theorem varint_run (b : Buffer) (p : UInt64) : varint.cursor.run b p =
    match Varint.decode b.bytes p.toNat with
    | .ok (v, next) => (.ok v, UInt64.ofNat next)
    | .error e => (.error e, p) := by
  rw [varint.cursor_follows, reader, Reader.varint]
  cases Varint.decode b.bytes p.toNat with
  | ok r => rfl
  | error e => exact congrArg (Prod.mk _) UInt64.ofNat_toNat

theorem ends_varint (b : Buffer) (p : UInt64) :
    varint.Ends b p (varint.cursor.run b p).1 (varint.cursor.run b p).2 := by
  have unsized : ∀ n, varint.width? = some n → b.bytes.size < p.toNat + n.toNat := by
    intro n hn
    cases hn
  rcases Varint.decode_cases b.bytes p.toNat with ⟨k, hk, ended, h⟩ | ⟨-, h⟩ | ⟨-, h⟩
  · have next : (UInt64.ofNat (p.toNat + k + 1)).toNat = p.toNat + k + 1 :=
      UInt64.toNat_ofNat_of_lt' (Nat.lt_of_le_of_lt ended.1 b.fits)
    rw [varint_run, h]
    refine .taken ?_ ?_ ⟨k, hk, ended, next⟩ ?_ ?_
    · rw [UInt64.le_iff_toNat_le, next]
      omega
    · rw [next]
      exact ended.1
    · intro e failed
      cases failed
    · rintro b' ⟨room, agree⟩
      rw [next] at room agree
      have ended' := agree.endsAfter room (Nat.le_refl _) (Nat.lt_succ_self _) ended
      rw [varint_run, Varint.decode_eq_ok_iff.2 ⟨k, hk, ended', rfl, rfl⟩,
        agree.total (Nat.le_refl _) (Nat.lt_succ_self _)]
  · rw [varint_run, h]
    exact .refused (.inr ⟨rfl, rfl⟩) unsized
  · rw [varint_run, h]
    exact .refused (.inl rfl) unsized

theorem ends (x : Reading) (b : Buffer) (p : UInt64) :
    x.Ends b p (x.cursor.run b p).1 (x.cursor.run b p).2 := by
  cases hx : x.width? with
  | some n => exact ends_of_width hx b p
  | none =>
      cases x with
      | varint => exact ends_varint b p
      | _ => cases hx

theorem ends_of_run (run : x.cursor.run b p = (r, q)) : x.Ends b p r q := by
  have ended := x.ends b p
  rwa [run] at ended

theorem kind_ne_of_refused
    (refused : e.kind = .bufferBounds ∨ x = .varint ∧ e.kind = .malformedVarint) :
    e.kind ≠ .unresolvedIndex := by
  rcases refused with kind | ⟨-, kind⟩
  · simp [kind]
  · simp [kind]

theorem takes_of_run (run : x.cursor.run b p = (r, q))
    (unresolved : ∀ e, r = .error e → x.IsRecord ∧ e.kind = .unresolvedIndex) : x.Takes b p := by
  rw [Takes, run]
  cases r with
  | ok v => exact .inl ⟨v, rfl⟩
  | error e =>
      obtain ⟨record, kind⟩ := unresolved e rfl
      exact .inr ⟨record, e, rfl, kind⟩

theorem not_takes_of_run (run : x.cursor.run b p = (.error e, q))
    (refused : e.kind = .bufferBounds ∨ x = .varint ∧ e.kind = .malformedVarint) :
    ¬ x.Takes b p := by
  rw [Takes, run]
  rintro (⟨v, failed⟩ | ⟨-, d, failed, kind⟩)
  · cases failed
  · cases failed
    exact kind_ne_of_refused refused kind

structure KeepsPlace (x : Reading) (b : Buffer) (p : UInt64) : Prop where
  passes : ∀ v q, x.cursor.run b p = (.ok v, q) →
    p ≤ q ∧ q.toNat ≤ b.bytes.size ∧ x.Passes b.bytes p.toNat q.toNat
  stays : ∀ e q, x.cursor.run b p = (.error e, q) →
    e.kind = .bufferBounds ∨ e.kind = .malformedVarint → q = p
  unresolved : ∀ e q, x.cursor.run b p = (.error e, q) → e.kind = .unresolvedIndex →
    x.IsRecord ∧ q.toNat ≤ b.bytes.size ∧ x.Passes b.bytes p.toNat q.toNat
  kinds : ∀ e q, x.cursor.run b p = (.error e, q) →
    e.kind = .bufferBounds ∨ x = .varint ∧ e.kind = .malformedVarint ∨
      x.IsRecord ∧ e.kind = .unresolvedIndex
  takes : ∀ n, x.width? = some n → (x.Takes b p ↔ p.toNat + n.toNat ≤ b.bytes.size)
  between : ∀ r q, x.cursor.run b p = (r, q) → x.Takes b p → ∀ b', SameBetween p q b b' →
    x.cursor.run b' p = (r, q)

theorem takes_iff (hx : x.width? = some n) (b : Buffer) (p : UInt64) :
    x.Takes b p ↔ p.toNat + n.toNat ≤ b.bytes.size := by
  rcases run : x.cursor.run b p with ⟨r, q⟩
  cases ends_of_run run with
  | taken onward inside passes unresolved between =>
      rw [Passes, hx] at passes
      exact iff_of_true (takes_of_run run unresolved) (passes ▸ inside)
  | refused kind short =>
      exact iff_of_false (not_takes_of_run run kind) (Nat.not_le.2 (short n hx))

theorem keepsPlace (x : Reading) (b : Buffer) (p : UInt64) : x.KeepsPlace b p where
  passes := by
    intro v q run
    cases ends_of_run run with
    | taken onward inside passes => exact ⟨onward, inside, passes⟩
  stays := by
    intro e q run kind
    cases ends_of_run run with
    | taken onward inside passes unresolved => simp [(unresolved e rfl).2] at kind
    | refused => rfl
  unresolved := by
    intro e q run kind
    cases ends_of_run run with
    | taken onward inside passes unresolved => exact ⟨(unresolved e rfl).1, inside, passes⟩
    | refused other => exact absurd kind (kind_ne_of_refused other)
  kinds := by
    intro e q run
    cases ends_of_run run with
    | taken onward inside passes unresolved => exact .inr (.inr (unresolved e rfl))
    | refused kind => exact kind.imp_right .inl
  takes := fun n hx => takes_iff hx b p
  between := by
    intro r q run taken b' same
    cases ends_of_run run with
    | taken onward inside passes unresolved between => exact between b' same
    | refused kind => exact absurd taken (not_takes_of_run run kind)

def Onward (b : Buffer) (p q : UInt64) : Prop :=
  p ≤ q ∧ (p.toNat ≤ b.bytes.size → q.toNat ≤ b.bytes.size)

theorem Onward.trans {o : UInt64} (first : Onward b p q) (second : Onward b q o) :
    Onward b p o :=
  ⟨UInt64.le_trans first.1 second.1, second.2 ∘ first.2⟩

theorem onward_run (x : Reading) (b : Buffer) (p : UInt64) :
    Onward b p (x.cursor.run b p).2 := by
  rcases run : x.cursor.run b p with ⟨r, q⟩
  cases ends_of_run run with
  | taken onward inside => exact ⟨onward, fun _ => inside⟩
  | refused => exact ⟨UInt64.le_refl p, id⟩

def positions (b : Buffer) : UInt64 → List Reading → List UInt64
  | _, [] => []
  | p, x :: xs =>
    let q := (x.cursor.run b p).2
    q :: positions b q xs

theorem pairwise_positions (b : Buffer) (p : UInt64) (xs : List Reading) :
    (p :: positions b p xs).Pairwise (Onward b) := by
  induction xs generalizing p with
  | nil => exact List.pairwise_singleton ..
  | cons x xs ih =>
      have step := x.onward_run b p
      have rest := ih (x.cursor.run b p).2
      refine List.Pairwise.cons (fun q hq => ?_) rest
      rcases List.mem_cons.1 hq with rfl | later
      · exact step
      · exact step.trans ((List.pairwise_cons.1 rest).1 q later)

end Reading

/-- A position is moved past the bytes that are read, or left where it was. -/
theorem readings_keep_their_place (b : Buffer) (p : UInt64) :
    (∀ x : Reading, x.KeepsPlace b p) ∧
      ∀ xs : List Reading, (p :: Reading.positions b p xs).Pairwise (Reading.Onward b) :=
  ⟨fun x => x.keepsPlace b p, Reading.pairwise_positions b p⟩

theorem readings_keep_their_place_sample :
    let pools : Pools := ⟨#["size"], #["LMain;"]⟩
    let field := Layout.FieldIds.bytes ⟨0, 7, 0⟩
    let b : Buffer := ⟨(field ++ [0x83]).toArray, by decide⟩
    let stops : List UInt64 := [0, 8, 8, 8, 9, 9]
    Reading.positions b 0 [.classDef pools, .field pools, .varint, .word16, .bytes 1, .word32] =
        stops ∧
      (0 :: stops).Pairwise (Reading.Onward b) ∧ (Reading.field pools).Takes b 0 ∧
      ¬ (Reading.bytes 2).Takes b 0xFFFFFFFFFFFFFFFF ∧
      (Reading.field pools).cursor.run ⟨field.toArray, by decide⟩ 0 =
        (Reading.field pools).cursor.run b 0 := by
  intro pools field b stops
  obtain ⟨places, along⟩ := readings_keep_their_place b 0
  obtain ⟨far, -⟩ := readings_keep_their_place b 0xFFFFFFFFFFFFFFFF
  have stopped : Reading.positions b 0
      [.classDef pools, .field pools, .varint, .word16, .bytes 1, .word32] = stops := by
    decide +kernel
  have taken : (Reading.field pools).Takes b 0 :=
    ((places (.field pools)).takes 8 rfl).2 (by decide)
  refine ⟨stopped, stopped ▸ along _, taken, ?_, ?_⟩
  · exact fun taken => absurd (((far (.bytes 2)).takes 2 rfl).1 taken) (by decide)
  · have moved : ((Reading.field pools).cursor.run b 0).2 = 8 := by decide +kernel
    rcases run : (Reading.field pools).cursor.run b 0 with ⟨r, q⟩
    rw [run] at moved
    subst moved
    exact (places (.field pools)).between r 8 run taken _ ⟨by decide, by decide +kernel⟩

end DexListing
