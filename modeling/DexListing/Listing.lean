import DexListing.Code
import DexListing.Container
import DexListing.Instruction.Dalvik

namespace DexListing

structure ClassListing where
  name : String
  superclass : Option String
  sourceFile : Option String
  lines : List Line
  deriving DecidableEq

def ClassListing.texts (c : ClassListing) : List String :=
  c.lines.map Line.text

structure Listing where
  version : Option Nat
  classes : List ClassListing
  deriving DecidableEq

namespace Dalvik

def line (tables : Tables) (p : PlacedUnit) : Resolved Line :=
  returned (Code.line instructionSet tables p) (Code.exists_line sound_instructionSet tables p)

def listing (b : Bytes) (offset : UInt32) (tables : Tables) : Run (List Line) :=
  returned (Code.walk b offset tables instructionSet)
    (Code.exists_walk sound_instructionSet b offset tables)

theorem line_eq_ok (tables : Tables) (p : PlacedUnit) :
    Code.line instructionSet tables p = .ok (line tables p) :=
  eq_ok_returned _

theorem walk_eq_ok (b : Bytes) (offset : UInt32) (tables : Tables) :
    Code.walk b offset tables instructionSet = .ok (listing b offset tables) :=
  eq_ok_returned _

theorem listing_eq (b : Bytes) (offset : UInt32) (tables : Tables) :
    listing b offset tables = do
      let found ← Code.units b offset
      Run.tellAll ((found.map (line tables)).filterMap Resolved.warning)
      return (found.map (line tables)).map Resolved.value := by
  have h := walk_eq_ok b offset tables
  rw [Code.walk_eq_ok (line_eq_ok tables), Except.ok.injEq] at h
  exact h.symm

end Dalvik

def Container.body (c : Container) (b : Bytes) (x : ClassDef) : Run (List Line) := do
  Run.tell (.disassembling x.name x.dataOffset)
  (Dalvik.listing b x.dataOffset c.tables).within (.body x.name)

def Container.classListing (c : Container) (b : Bytes) (x : ClassDef) : Run ClassListing := do
  let lines ← c.body b x
  return ⟨x.name, x.superclass, x.sourceFile, lines⟩

theorem Container.outcome_body (c : Container) (b : Bytes) (x : ClassDef) :
    (c.body b x).outcome =
      within (.body x.name) (Dalvik.listing b x.dataOffset c.tables).outcome := by
  rw [Container.body, Run.outcome_bind, Run.outcome_tell]
  rfl

def disassemble (b : Bytes) (options : Options) (pool : WorkerPool) : Run Listing := do
  let c ← Container.decode b options pool
  let classes ← Run.each (c.classListing b) c.classes.toList
  return ⟨c.header.version, classes⟩

theorem outcome_disassemble (b : Bytes) (options : Options) (pool : WorkerPool) :
    (disassemble b options pool).outcome = do
      let c ← (Container.decode b options pool).outcome
      let classes ← (Run.each (c.classListing b) c.classes.toList).outcome
      return ⟨c.header.version, classes⟩ := by
  simp only [disassemble, Run.outcome_bind, Run.outcome_pure]
  rfl

end DexListing
