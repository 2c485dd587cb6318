import DexListing.Collect
import DexListing.Header
import DexListing.Reader
import DexListing.Run
import DexListing.Text

namespace DexListing

namespace StringTable

structure Entries where
  values : Array String
  lossy : Nat
  deriving DecidableEq

namespace Entries

def empty : Entries := ⟨#[], 0⟩

def add (found : Entries) (t : Text) : Entries :=
  ⟨found.values.push t.value, found.lossy + t.lossy.toNat⟩

def append (x y : Entries) : Entries :=
  ⟨x.values ++ y.values, x.lossy + y.lossy⟩

theorem append_empty (x : Entries) : x.append empty = x := by
  simp [append, empty]

theorem append_assoc (x y z : Entries) : (x.append y).append z = x.append (y.append z) := by
  simp [append, Nat.add_assoc]

theorem append_add (x y : Entries) (t : Text) : x.append (y.add t) = (x.append y).add t := by
  simp [append, add, Nat.add_assoc]

end Entries

def offsets (b : Bytes) (x : Extent) : Except Error (Array UInt32) :=
  collect x.size.toNat fun i => (Reader.word32 b (x.offset.toNat + 4 * i)).result

def entry (b : Bytes) (offset : UInt32) : Except Error Text :=
  within (.stringData offset) (Text.read b offset.toNat)

def extend (b : Bytes) : Entries → List UInt32 → Except Error Entries
  | found, [] => .ok found
  | found, offset :: rest =>
    match entry b offset with
    | .ok t => extend b (found.add t) rest
    | .error e => .error e

def entries (b : Bytes) (positions : List UInt32) : Except Error Entries :=
  extend b .empty positions

theorem extend_append (b : Bytes) (found : Entries) (xs ys : List UInt32) :
    extend b found (xs ++ ys) = (extend b found xs).bind fun mid => extend b mid ys := by
  induction xs generalizing found with
  | nil => rfl
  | cons x xs ih =>
      simp only [List.cons_append, extend]
      cases entry b x with
      | error e => rfl
      | ok t => exact ih _

/-- Slots and offsets are passed in step, and the shorter of the two ends the loop. -/
def fillFrom (b : Bytes) : Nat → Entries → List UInt32 → Except Error Entries
  | _, slots, [] => .ok slots
  | i, slots, offset :: rest =>
    if h : i < slots.values.size then
      match entry b offset with
      | .ok t => fillFrom b (i + 1) ⟨slots.values.set i t.value h, slots.lossy + t.lossy.toNat⟩ rest
      | .error e => .error e
    else
      .ok slots

def fill (b : Bytes) (slots : Array String) (offsets : List UInt32) : Except Error Entries :=
  fillFrom b 0 ⟨slots, 0⟩ offsets

/-- A way to share out a list of offsets; a fork says whose error counts if both sides fail. -/
inductive Split where
  | leaf (offsets : List UInt32)
  | fork (preferLeft : Bool) (left right : Split)

namespace Split

def offsets : Split → List UInt32
  | leaf offsets => offsets
  | fork _ left right => left.offsets ++ right.offsets

def join (preferLeft : Bool) (x y : Except Error Entries) : Except Error Entries :=
  match x, y with
  | .ok x, .ok y => .ok (x.append y)
  | .error e, .ok _ => .error e
  | .ok _, .error e => .error e
  | .error d, .error e => .error (if preferLeft then d else e)

def entries (b : Bytes) : Split → Except Error Entries
  | leaf offsets => StringTable.entries b offsets
  | fork preferLeft left right => join preferLeft (left.entries b) (right.entries b)

def fill (b : Bytes) : Split → Array String → Except Error Entries
  | leaf offsets, slots => StringTable.fill b slots offsets
  | fork preferLeft left right, slots =>
    let middle := left.offsets.length
    join preferLeft (left.fill b (slots.extract 0 middle)) (right.fill b (slots.extract middle))

end Split

end StringTable

/-- Why the workers cannot be started, or how they share out a list of offsets. -/
inductive WorkerPool where
  | unstarted (reason : String)
  | started (share : (offsets : List UInt32) → { s : StringTable.Split // s.offsets = offsets })

namespace StringTable

def fillWith (b : Bytes) (workers : Nat) (pool : WorkerPool) (slots : Array String)
    (offsets : List UInt32) : Run Entries :=
  if workers ≤ 1 ∨ offsets.length < 2 then
    liftM (fill b slots offsets)
  else
    match pool with
    | .started share => liftM ((share offsets).1.fill b slots)
    | .unstarted reason => do
      Run.tell (.workersNotStarted workers reason)
      fill b slots offsets

/-- All offsets are read before any text is. -/
def decode (b : Bytes) (x : Extent) (workers : Nat) (pool : WorkerPool) :
    Run (Array String) := do
  let found ← offsets b x
  let decoded ← fillWith b workers pool (Array.replicate found.size "") found.toList
  if 0 < decoded.lossy then
    Run.tell (.lossyStrings decoded.lossy decoded.values.size)
  Run.tell (.stringsDecoded decoded.values.size (max workers 1))
  return decoded.values

end StringTable

end DexListing
