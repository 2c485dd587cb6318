import DexListing.Listing

namespace DexListing

structure Batch where
  decoded : List (String × Listing)
  failures : List (String × Error)
  log : List Record
  deriving DecidableEq

namespace Batch

structure Input where
  id : String
  bytes : Bytes
  pool : WorkerPool

def Input.run (x : Input) (options : Options) : Run Listing :=
  disassemble x.bytes options x.pool

def empty : Batch := ⟨[], [], []⟩

def add (batch : Batch) (id : String) (run : Run Listing) : Batch :=
  match run.outcome with
  | .ok listing =>
      ⟨batch.decoded ++ [(id, listing)], batch.failures,
        batch.log ++ run.log ++ [.batchDecoded id listing.classes.length]⟩
  | .error e =>
      ⟨batch.decoded, batch.failures ++ [(id, e)],
        batch.log ++ run.log ++ [.batchFailed id e]⟩

def ofInputs (inputs : List Input) (options : Options) : Batch :=
  inputs.foldl (fun batch x => batch.add x.id (x.run options)) empty

def isClean (batch : Batch) : Bool :=
  batch.failures.isEmpty

def classCount (batch : Batch) : Nat :=
  batch.decoded.foldl (fun n entry => n + entry.2.classes.length) 0

end Batch

end DexListing
