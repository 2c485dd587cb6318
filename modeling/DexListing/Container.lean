import DexListing.StringTable
import DexListing.Tables

namespace DexListing

structure Options where
  workers : Nat := 4
  deriving DecidableEq

def Options.ofProcessors : Option Nat → Options
  | some n => ⟨n⟩
  | none => {}

def Options.effectiveWorkers (o : Options) : Nat :=
  max o.workers 1

structure Container where
  header : Header
  tables : Tables
  classes : Array ClassDef

def Container.summary (c : Container) : Record :=
  .tablesDecoded c.header.version c.tables.strings.size c.tables.types.size c.tables.fields.size
    c.tables.methods.size c.classes.size

def Container.decode (b : Bytes) (options : Options) (pool : WorkerPool) : Run Container := do
  let header ← Header.read b
  let strings ← StringTable.decode b header.strings options.effectiveWorkers pool
  let types ← TypeTable.decode b header.types strings
  let pools : Pools := ⟨strings, types⟩
  let fields ← header.fields.records .fields (FieldRef.reader pools) b
  let methods ← header.methods.records .methods (MethodRef.reader pools) b
  let classes ← header.classes.records .classes (ClassDef.reader pools) b
  let container : Container := ⟨header, ⟨pools, fields, methods⟩, classes⟩
  Run.tell container.summary
  return container

end DexListing
