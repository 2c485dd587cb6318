import DexListing.Proofs.Code.Units
import Mathlib.Data.List.Forall2

namespace DexListing

theorem Run.outcome_each_eq_ok_iff {α β : Type} {f : α → Run β} {xs : List α} {ys : List β} :
    (Run.each f xs).outcome = .ok ys ↔ List.Forall₂ (fun x y => (f x).outcome = .ok y) xs ys := by
  induction xs generalizing ys with
  | nil =>
      rw [Run.each, outcome_pure, Except.ok.injEq, List.forall₂_nil_left_iff, eq_comm]
  | cons x xs ih =>
      simp only [Run.each, outcome_bind, outcome_pure, bind_eq_ok_iff, List.forall₂_cons_left_iff,
        ← ih, Except.ok.injEq]
      constructor
      · rintro ⟨y, hy, zs, hz, rfl⟩
        exact ⟨y, zs, hy, hz, rfl⟩
      · rintro ⟨y, zs, hy, hz, rfl⟩
        exact ⟨y, hy, zs, hz, rfl⟩

theorem Code.eq_of_getElem?_units {b : Bytes} {offset : UInt32} {found : List PlacedUnit}
    (h : units b offset = .ok found) {k : Nat} {p : PlacedUnit} (hp : found[k]? = some p) :
    p = ⟨offset.toNat + 16 + 2 * k, ⟨byteAt b (offset.toNat + 16 + 2 * k),
      byteAt b (offset.toNat + 16 + 2 * k + 1)⟩⟩ := by
  obtain rfl := eq_unitsOf h
  rw [unitsOf] at hp
  split at hp
  · cases hp
  · obtain ⟨hk, rfl⟩ := List.getElem?_eq_some_iff.1 hp
    simp [unitsAt]

theorem Container.outcome_classListing_eq_ok_iff {c : Container} {b : Bytes} {x : ClassDef}
    {y : ClassListing} :
    (c.classListing b x).outcome = .ok y ↔
      ∃ found, Code.units b x.dataOffset = .ok found ∧
        y = ⟨x.name, x.superclass, x.sourceFile,
          (found.map (Dalvik.line c.tables)).map Resolved.value⟩ := by
  rw [classListing, Run.outcome_bind, outcome_body, bind_eq_ok_iff]
  simp only [within_eq_ok_iff, Dalvik.outcome_listing, map_eq_ok_iff, Run.outcome_pure,
    Except.ok.injEq]
  constructor
  · rintro ⟨_, ⟨found, hf, rfl⟩, rfl⟩
    exact ⟨found, hf, rfl⟩
  · rintro ⟨found, hf, rfl⟩
    exact ⟨_, ⟨found, hf, rfl⟩, rfl⟩

theorem outcome_disassemble_eq_ok_iff {b : Bytes} {o : Options} {pool : WorkerPool}
    {d : Listing} :
    (disassemble b o pool).outcome = .ok d ↔
      ∃ c, (Container.decode b o pool).outcome = .ok c ∧ d.version = c.header.version ∧
        List.Forall₂ (fun x y => (c.classListing b x).outcome = .ok y) c.classes.toList d.classes := by
  simp only [outcome_disassemble, bind_eq_ok_iff, Run.outcome_each_eq_ok_iff, pure, Except.pure,
    Except.ok.injEq]
  refine exists_congr fun c => and_congr_right fun _ => ?_
  constructor
  · rintro ⟨ys, hy, rfl⟩
    exact ⟨rfl, hy⟩
  · rintro ⟨hv, hy⟩
    exact ⟨d.classes, hy, by rw [← hv]⟩

end DexListing
