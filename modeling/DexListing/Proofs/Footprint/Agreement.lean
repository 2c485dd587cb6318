import DexListing.Proofs.Code.Units
import DexListing.Proofs.Container.Decoding

namespace DexListing

structure Span where
  start : Nat
  stop : Nat
  deriving DecidableEq

def Span.Covers (s : Span) (p : Nat) : Prop :=
  s.start ≤ p ∧ p < s.stop

def Span.Agree (s : Span) (b b' : Bytes) : Prop :=
  ∀ p < s.stop, s.start ≤ p → b'[p]? = b[p]?

instance (s : Span) (p : Nat) : Decidable (s.Covers p) :=
  inferInstanceAs (Decidable (_ ∧ _))

instance (s : Span) (b b' : Bytes) : Decidable (s.Agree b b') :=
  inferInstanceAs (Decidable (∀ p < s.stop, _ → _))

namespace Footprint

def table (b : Bytes) (t : Table) : Span :=
  ⟨(extentAt b t).offset.toNat, (extentAt b t).offset.toNat + t.width * tableSize b t⟩

def method (p : Nat) : List Span :=
  -- the prototype stands between the two
  [⟨p, p + 2⟩, ⟨p + 4, p + 8⟩]

def classDef (p : Nat) : List Span :=
  -- the words of the class, the superclass, the source file and the place of the code
  [⟨p, p + 4⟩, ⟨p + 8, p + 12⟩, ⟨p + 16, p + 20⟩, ⟨p + 24, p + 28⟩]

def text (b : Bytes) (p : Nat) : List Span :=
  let start := (word32At b p).toNat
  match Varint.decode b start with
  | .ok (count, payload) => [⟨start, payload + count.toNat⟩]
  | .error _ => []

def code (b : Bytes) (p : Nat) : List Span :=
  let offset := word32At b (p + 24)
  if offset = 0 then []
  else [⟨offset.toNat + 12, offset.toNat + 16 + 2 * Code.unitCount b offset⟩]

def each (b : Bytes) (t : Table) (spans : Nat → List Span) : List Span :=
  (List.range (tableSize b t)).flatMap fun i => spans (entryAt b t i)

theorem mem_each {b : Bytes} {t : Table} {spans : Nat → List Span} {i : Nat} {s : Span}
    (hi : i < tableSize b t) (hs : s ∈ spans (entryAt b t i)) : s ∈ each b t spans :=
  List.mem_flatMap.2 ⟨i, List.mem_range.2 hi, hs⟩

end Footprint

def footprint (b : Bytes) : List Span :=
  [⟨0, 7⟩, ⟨56, 72⟩, ⟨80, 104⟩, Footprint.table b .strings, Footprint.table b .types,
      Footprint.table b .fields] ++
    Footprint.each b .methods Footprint.method ++ Footprint.each b .classes Footprint.classDef ++
    Footprint.each b .strings (Footprint.text b) ++ Footprint.each b .classes (Footprint.code b)

variable {b b' : Bytes}

namespace Span.Agree

variable {start stop p : Nat}

theorem byteAt (h : Span.Agree ⟨start, stop⟩ b b') (hl : start ≤ p) (hp : p < stop) :
    byteAt b' p = byteAt b p := by
  rw [DexListing.byteAt, h p hp hl, DexListing.byteAt]

theorem word16At (h : Span.Agree ⟨start, stop⟩ b b') (hl : start ≤ p) (hp : p + 2 ≤ stop) :
    word16At b' p = word16At b p := by
  rw [DexListing.word16At, h.byteAt hl (by omega), h.byteAt (by omega) (by omega)]
  rfl

theorem word32At (h : Span.Agree ⟨start, stop⟩ b b') (hl : start ≤ p) (hp : p + 4 ≤ stop) :
    word32At b' p = word32At b p := by
  rw [DexListing.word32At, h.byteAt hl (by omega), h.byteAt (by omega) (by omega),
    h.byteAt (by omega) (by omega), h.byteAt (by omega) (by omega)]
  rfl

theorem window {n : Nat} (h : Span.Agree ⟨start, stop⟩ b b') (hl : start ≤ p) (hp : p + n ≤ stop) :
    window b' p n = window b p n := by
  apply Vector.ext
  intro i hi
  rw [getElem_window hi, getElem_window hi, h.byteAt (by omega) (by omega)]

theorem endsAfter {k : Nat} (h : Span.Agree ⟨start, stop⟩ b b') (hs : p + k < b'.size)
    (hl : start ≤ p) (hp : p + k < stop) (he : Varint.EndsAfter b p k) :
    Varint.EndsAfter b' p k := by
  obtain ⟨-, hx, hc⟩ := he
  refine ⟨hs, by rwa [h.byteAt (by omega) hp], fun i hi => ?_⟩
  rw [h.byteAt (by omega) (by omega)]
  exact hc i hi

theorem total {k : Nat} (h : Span.Agree ⟨start, stop⟩ b b') (hl : start ≤ p) (hp : p + k < stop) :
    Varint.total b' p k = Varint.total b p k := by
  refine Finset.sum_congr rfl fun i hi => ?_
  rw [Finset.mem_range] at hi
  rw [h.byteAt (by omega) (by omega)]

end Span.Agree

structure Agreement (b b' : Bytes) : Prop where
  size : b'.size = b.size
  spans : ∀ s ∈ footprint b, s.Agree b b'

theorem agreement_setIfInBounds {p : Nat} (h : ∀ s ∈ footprint b, ¬ s.Covers p) (x : UInt8) :
    Agreement b (b.setIfInBounds p x) where
  size := Array.size_setIfInBounds
  spans := by
    intro s hs q hq hl
    have hne : p ≠ q := by
      rintro rfl
      exact h s hs ⟨hl, hq⟩
    exact Array.getElem?_setIfInBounds_ne hne

def scrambled (b : Bytes) (x : UInt8) : Bytes :=
  b.mapIdx fun p y => if ∃ s ∈ footprint b, s.Covers p then y else x

theorem agreement_scrambled (b : Bytes) (x : UInt8) : Agreement b (scrambled b x) where
  size := Array.size_mapIdx
  spans := by
    intro s hs p hp hl
    have hc : ∃ s ∈ footprint b, s.Covers p := ⟨s, hs, hl, hp⟩
    simp [scrambled, hc]

namespace Agreement

variable {i : Nat}

theorem head (h : Agreement b b') : (⟨0, 7⟩ : Span).Agree b b' :=
  h.spans _ (by simp [footprint])

theorem extentAt_eq (h : Agreement b b') (t : Table) : extentAt b' t = extentAt b t := by
  have low : (⟨56, 72⟩ : Span).Agree b b' := h.spans _ (by simp [footprint])
  have high : (⟨80, 104⟩ : Span).Agree b b' := h.spans _ (by simp [footprint])
  have word (p : Nat) (hp : 56 ≤ p ∧ p + 4 ≤ 72 ∨ 80 ≤ p ∧ p + 4 ≤ 104) :
      word32At b' p = word32At b p := by
    rcases hp with ⟨hl, hr⟩ | ⟨hl, hr⟩
    · exact low.word32At hl hr
    · exact high.word32At hl hr
  rw [extentAt, word _ (by cases t <;> decide), word _ (by cases t <;> decide)]
  rfl

theorem tableSize_eq (h : Agreement b b') (t : Table) : tableSize b' t = tableSize b t := by
  rw [tableSize, h.extentAt_eq]
  rfl

theorem entryAt_eq (h : Agreement b b') (t : Table) (i : Nat) : entryAt b' t i = entryAt b t i := by
  rw [entryAt, h.extentAt_eq]
  rfl

theorem table (h : Agreement b b') {t : Table} (ht : Footprint.table b t ∈ footprint b)
    (hi : i < tableSize b t) : (⟨entryAt b t i, entryAt b t i + t.width⟩ : Span).Agree b b' := by
  have hm : t.width * (i + 1) ≤ t.width * tableSize b t := Nat.mul_le_mul_left _ hi
  rw [Nat.mul_succ] at hm
  intro p hp hl
  simp only [entryAt] at hp hl
  exact h.spans _ ht p (by simp only [Footprint.table]; omega) (by simp only [Footprint.table]; omega)

theorem methods (h : Agreement b b') (hi : i < tableSize b .methods) :
    ∀ s ∈ Footprint.method (entryAt b .methods i), s.Agree b b' :=
  fun s hs => h.spans s (by simp [footprint, Footprint.mem_each hi hs])

theorem classes (h : Agreement b b') (hi : i < tableSize b .classes) :
    ∀ s ∈ Footprint.classDef (entryAt b .classes i), s.Agree b b' :=
  fun s hs => h.spans s (by simp [footprint, Footprint.mem_each hi hs])

theorem text (h : Agreement b b') (hi : i < tableSize b .strings) :
    ∀ s ∈ Footprint.text b (entryAt b .strings i), s.Agree b b' :=
  fun s hs => h.spans s (by simp [footprint, Footprint.mem_each hi hs])

theorem code (h : Agreement b b') (hi : i < tableSize b .classes) :
    ∀ s ∈ Footprint.code b (entryAt b .classes i), s.Agree b b' :=
  fun s hs => h.spans s (by simp [footprint, Footprint.mem_each hi hs])

theorem framed (h : Agreement b b') (hf : Framed b) : Framed b' where
  magic := by
    obtain ⟨h0, h1, h2, h3⟩ := hf.magic
    have same (p : Nat) (hp : p < 7) : b'[p]? = b[p]? := h.head p hp (Nat.zero_le p)
    exact ⟨(same 0 (by decide)).trans h0, (same 1 (by decide)).trans h1,
      (same 2 (by decide)).trans h2, (same 3 (by decide)).trans h3⟩
  header := h.size ▸ hf.header
  inside := by
    intro t
    rw [h.extentAt_eq, Extent.Inside, h.size]
    exact hf.inside t

theorem storedAt (h : Agreement b b') (hi : i < tableSize b .strings) {t : Text}
    (ht : Text.StoredAt b (word32At b (entryAt b .strings i)).toNat t) :
    Text.StoredAt b' (word32At b' (entryAt b' .strings i)).toNat t := by
  have hw : word32At b' (entryAt b .strings i) = word32At b (entryAt b .strings i) :=
    (h.table (t := .strings) (by simp [footprint]) hi).word32At (Nat.le_refl _) (Nat.le_refl _)
  obtain ⟨k, hk, he, hle, rfl⟩ := ht
  have hd := Varint.decode_eq_ok_iff.2 ⟨k, hk, he, rfl, rfl⟩
  have hs := h.text hi
  rw [Footprint.text, hd] at hs
  have hs := hs _ (List.mem_singleton_self _)
  rw [UInt32.toNat_ofNat'] at hs
  rw [h.entryAt_eq, hw]
  refine ⟨k, hk, hs.endsAfter (h.size ▸ he.1) (Nat.le_refl _) (by omega) he, ?_, ?_⟩
  · rw [hs.total (Nat.le_refl _) (by omega), h.size]
    exact hle
  · rw [hs.total (Nat.le_refl _) (by omega), hs.window (by omega) (Nat.le_refl _)]

theorem units (h : Agreement b b') (hi : i < tableSize b .classes) :
    Code.units b' (word32At b (entryAt b .classes i + 24)) =
      Code.units b (word32At b (entryAt b .classes i + 24)) := by
  generalize ho : word32At b (entryAt b .classes i + 24) = offset
  by_cases h0 : offset = 0
  · rw [h0, Code.units_zero, Code.units_zero]
  · have hs := h.code hi
    rw [Footprint.code, ho, if_neg h0] at hs
    have hs := hs _ (List.mem_singleton_self _)
    have hn : Code.unitCount b' offset = Code.unitCount b offset := by
      rw [Code.unitCount, hs.word32At (Nat.le_refl _) (by omega)]
      rfl
    have hsize := h.size
    by_cases hp : b.size < offset.toNat + 16
    · rw [Code.units_of_short h0 hp, Code.units_of_short h0 (by omega), hsize]
    · by_cases hu : b.size < offset.toNat + 16 + 2 * Code.unitCount b offset
      · rw [Code.units_of_lt h0 (by omega) hu, Code.units_of_lt h0 (by omega) (by omega), hn, hsize]
      · rw [Code.units_of_le h0 (by omega), Code.units_of_le h0 (by omega), hn]
        refine congrArg Except.ok (congrArg List.ofFn (funext fun k => ?_))
        have hk := k.isLt
        rw [hs.byteAt (by omega) (by omega),
          hs.byteAt (by omega) (by omega)]

end Agreement

end DexListing
