import DexListing.CommandLine

open DexListing

def fileError : IO.Error → FileError
  | .noFileOrDirectory _ _ _ => .notFound
  | .permissionDenied _ _ _ => .denied
  | .inappropriateType _ 21 _ => .isDirectory
  | .inappropriateType _ _ _ => .notDirectory
  | e =>
    let message := e.toString.toList.filter fun c => c.toNat < 128
    ⟨0, "Other", String.ofList message, by decide, by simp [message]⟩

def readFile (name : String) : IO (Except FileError Bytes) := do
  try
    let bytes ← IO.FS.readBinFile name
    return .ok bytes.data
  catch e => return .error (fileError e)

/-- No processor is counted and nothing is shared out. -/
def host (files : List (String × Except FileError Bytes)) : Host where
  file name := (files.lookup name).getD (.error .notFound)
  processors := none
  pool _ := .started fun offsets => ⟨.leaf offsets, rfl⟩

def main (args : List String) : IO UInt32 := do
  let files ← args.mapM fun name => return (name, ← readFile name)
  let session := CommandLine.run (host files) args
  IO.print session.output
  return session.exitCode
