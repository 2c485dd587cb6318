import DexListing.Proofs.Bytes.Word
import DexListing.Proofs.Outcome
import DexListing.Tables

namespace DexListing

def OptionalEntry (pool : Array String) (i : UInt32) (s : Option String) : Prop :=
  (i = noIndex ∧ s = none) ∨ (i ≠ noIndex ∧ ∃ x, pool[i.toNat]? = some x ∧ s = some x)

theorem optional_resolve_eq_ok_iff {t : Table} {pool : Array String} {i : UInt32}
    {s : Option String} :
    optional i (resolve t pool) = .ok s ↔ OptionalEntry pool i s := by
  rw [optional, OptionalEntry]
  split
  next hi => simp [hi, eq_comm]
  next hi =>
    simp only [hi, map_eq_ok_iff, resolve_eq_ok_iff, ne_eq, not_false_eq_true, true_and, false_and,
      false_or]
    exact exists_congr fun x => and_congr_right fun _ => eq_comm

structure FieldRef.StandsAt (f : FieldRef) (pools : Pools) (b : Bytes) (p : Nat) : Prop where
  owner : pools.types[(word16At b p).toNat]? = some f.owner
  type : pools.types[(word16At b (p + 2)).toNat]? = some f.type
  name : pools.strings[(word32At b (p + 4)).toNat]? = some f.name

structure MethodRef.StandsAt (m : MethodRef) (pools : Pools) (b : Bytes) (p : Nat) : Prop where
  owner : pools.types[(word16At b p).toNat]? = some m.owner
  proto : m.proto = word16At b (p + 2)
  name : pools.strings[(word32At b (p + 4)).toNat]? = some m.name

structure ClassDef.StandsAt (x : ClassDef) (pools : Pools) (b : Bytes) (p : Nat) : Prop where
  name : pools.types[(word32At b p).toNat]? = some x.name
  access : x.access.bits = word32At b (p + 4)
  superclass : OptionalEntry pools.types (word32At b (p + 8)) x.superclass
  sourceFile : OptionalEntry pools.strings (word32At b (p + 16)) x.sourceFile
  dataOffset : x.dataOffset = word32At b (p + 24)

variable {pools : Pools} {b : Bytes} {p : Nat}

theorem FieldRef.parse_window_eq_ok_iff {f : FieldRef} :
    FieldRef.parse pools (window b p 8) = .ok f ↔ f.StandsAt pools b p := by
  simp only [parse, Pools.type, Pools.string, u16_window, u32_window, bind_eq_ok_iff,
    resolve_eq_ok_iff, UInt16.toNat_toUInt32, Nat.add_zero]
  constructor
  · rintro ⟨owner, ho, type, ht, name, hn, hf⟩
    cases hf
    exact ⟨ho, ht, hn⟩
  · rintro ⟨ho, ht, hn⟩
    exact ⟨_, ho, _, ht, _, hn, rfl⟩

theorem MethodRef.parse_window_eq_ok_iff {m : MethodRef} :
    MethodRef.parse pools (window b p 8) = .ok m ↔ m.StandsAt pools b p := by
  simp only [parse, Pools.type, Pools.string, u16_window, u32_window, bind_eq_ok_iff,
    resolve_eq_ok_iff, UInt16.toNat_toUInt32, Nat.add_zero]
  constructor
  · rintro ⟨owner, ho, name, hn, hm⟩
    cases hm
    exact ⟨ho, rfl, hn⟩
  · rintro ⟨ho, hp, hn⟩
    exact ⟨_, ho, _, hn, by rw [← hp]; rfl⟩

theorem ClassDef.parse_window_eq_ok_iff {x : ClassDef} :
    ClassDef.parse pools (window b p 32) = .ok x ↔ x.StandsAt pools b p := by
  have ht : pools.type = resolve .types pools.types := rfl
  have hs : pools.string = resolve .strings pools.strings := rfl
  simp only [parse, ht, hs, u32_window, bind_eq_ok_iff, within_eq_ok_iff, resolve_eq_ok_iff,
    optional_resolve_eq_ok_iff, Nat.add_zero]
  constructor
  · rintro ⟨name, hn, superclass, hu, sourceFile, hf, hx⟩
    cases hx
    exact ⟨hn, rfl, hu, hf, rfl⟩
  · rintro ⟨hn, ha, hu, hf, hd⟩
    exact ⟨_, hn, _, hu, _, hf, by rw [← ha, ← hd]; rfl⟩

theorem ClassDef.reader_eq_ok_iff {x : ClassDef} :
    (ClassDef.reader pools b p).result = .ok x ↔ p + 32 ≤ b.size ∧ x.StandsAt pools b p := by
  rw [reader, Reader.result_record_eq_ok_iff, parse_window_eq_ok_iff]

end DexListing
