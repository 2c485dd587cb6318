import DexListing.Proofs.StringTable.Split

namespace DexListing

namespace WorkerPool

variable {pool : WorkerPool} {workers count : Nat} {offs : List UInt32} {b : Bytes}

def split : WorkerPool → Nat → List UInt32 → StringTable.Split
  | unstarted _, _, offs => .leaf offs
  | started share, workers, offs =>
    if workers ≤ 1 ∨ offs.length < 2 then .leaf offs else (share offs).1

def refusals : WorkerPool → Nat → Nat → List Record
  | unstarted reason, workers, count =>
    if workers ≤ 1 ∨ count < 2 then [] else [.workersNotStarted workers reason]
  | started _, _, _ => []

theorem offsets_split (pool : WorkerPool) (workers : Nat) (offs : List UInt32) :
    (pool.split workers offs).offsets = offs := by
  cases pool with
  | unstarted reason => rfl
  | started share =>
      rw [split]
      split
      · rfl
      · exact (share offs).2

theorem split_of_le (h : workers ≤ 1) : pool.split workers offs = .leaf offs := by
  cases pool with
  | unstarted reason => rfl
  | started share => exact if_pos (.inl h)

theorem split_started (several : 2 ≤ workers) (h : 2 ≤ offs.length)
    (share : (offsets : List UInt32) → { s : StringTable.Split // s.offsets = offsets }) :
    (started share).split workers offs = (share offs).1 := by
  rw [split, if_neg (by omega)]

theorem level_of_mem_refusals {r : Record} (h : r ∈ pool.refusals workers count) :
    r.level = .warn := by
  cases pool with
  | unstarted reason =>
      rw [refusals] at h
      split at h
      · cases h
      · obtain rfl := List.mem_singleton.1 h
        rfl
  | started share => cases h

theorem entries_split_eq_ok_iff {z : StringTable.Entries} :
    (pool.split workers offs).entries b = .ok z ↔ StringTable.entries b offs = .ok z := by
  rw [StringTable.Split.entries_eq_ok_iff, offsets_split]

theorem exists_fails_of_split {e : Error} (h : (pool.split workers offs).entries b = .error e) :
    ∃ off ∈ offs, StringTable.entry b off = .error e := by
  have fails := StringTable.Split.exists_fails_of_error h
  rwa [offsets_split] at fails

theorem entries_split_of_prefersLeft (h : (pool.split workers offs).PrefersLeft b) :
    (pool.split workers offs).entries b = StringTable.entries b offs := by
  rw [StringTable.Split.entries_of_prefersLeft h, offsets_split]

/-- The later part is preferred, from the given place on. -/
def cutAt (i : Nat) : WorkerPool :=
  .started fun offs =>
    ⟨.fork false (.leaf (offs.take i)) (.leaf (offs.drop i)), List.take_append_drop i offs⟩

theorem entries_cutAt {i : Nat} {off : UInt32} {e : Error} (several : 2 ≤ workers)
    (h : 2 ≤ offs.length) (stands : offs[i]? = some off)
    (fails : StringTable.entry b off = .error e) :
    ((cutAt i).split workers offs).entries b = .error e := by
  obtain ⟨hi, rfl⟩ := List.getElem?_eq_some_iff.1 stands
  have later : StringTable.entries b (offs.drop i) = .error e := by
    rw [List.drop_eq_getElem_cons hi, StringTable.entries, StringTable.extend, fails]
  rw [cutAt, split_started several h]
  simp only [StringTable.Split.entries, later]
  cases StringTable.entries b (offs.take i) <;> rfl

end WorkerPool

namespace StringTable

variable {b : Bytes} {slots : Array String} {offs : List UInt32}

theorem fillWith_eq (full : slots.size = offs.length) (workers : Nat) (pool : WorkerPool) :
    fillWith b workers pool slots offs =
      ⟨(pool.split workers offs).entries b, pool.refusals workers offs.length⟩ := by
  cases pool with
  | started share =>
      have fits : slots.size = (share offs).1.offsets.length := by rw [(share offs).2, full]
      rw [fillWith, WorkerPool.split]
      split
      · exact congrArg (Run.mk · []) (fill_eq_entries full)
      · exact congrArg (Run.mk · []) (Split.fill_eq_entries _ fits)
  | unstarted reason =>
      rw [fillWith, WorkerPool.refusals, fill_eq_entries full]
      split <;> rfl

end StringTable

end DexListing
