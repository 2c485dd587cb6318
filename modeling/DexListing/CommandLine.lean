import DexListing.Batch

namespace DexListing

/-- The kind is an identifier and the message is in ASCII, so that both print without any
character that a table of Unicode properties would have to decide on. -/
structure FileError where
  code : Nat
  kind : String
  message : String
  identifier : kind.toList.all Char.isAlpha = true
  ascii : message.toList.all (fun c => c.toNat < 128) = true
  deriving DecidableEq

namespace FileError

def notFound : FileError :=
  ⟨2, "NotFound", "No such file or directory", by decide, by decide⟩

def denied : FileError :=
  ⟨13, "PermissionDenied", "Permission denied", by decide, by decide⟩

def notDirectory : FileError :=
  ⟨20, "NotADirectory", "Not a directory", by decide, by decide⟩

def isDirectory : FileError :=
  ⟨21, "IsADirectory", "Is a directory", by decide, by decide⟩

def escape (c : Char) : String :=
  match c.toNat with
  | 0x00 => "\\0"
  | 0x09 => "\\t"
  | 0x0A => "\\n"
  | 0x0D => "\\r"
  | 0x22 => "\\\""
  | 0x5C => "\\\\"
  | n => if 0x20 ≤ n ∧ n < 0x7F then c.toString else "\\u\x7b" ++ hex n ++ "\x7d"

def quoted (s : String) : String :=
  "\"" ++ String.join (s.toList.map escape) ++ "\""

def text (e : FileError) : String :=
  s!"Os \x7b code: {e.code}, kind: {e.kind}, message: {quoted e.message} \x7d"

end FileError

structure Host where
  file : String → Except FileError Bytes
  processors : Option Nat
  pool : Nat → WorkerPool

namespace Host

def options (host : Host) : Options :=
  .ofProcessors host.processors

def inputs (host : Host) (files : List (String × Bytes)) : List Batch.Input :=
  files.mapIdx fun i x => ⟨x.1, x.2, host.pool i⟩

end Host

namespace CommandLine

def usage : String := "Usage: dex2pseudo <classes.dex>..."

def contents (file : String → Except FileError Bytes) :
    List String → Except FileError (List (String × Bytes))
  | [] => .ok []
  | name :: rest => do
    let bytes ← file name
    let others ← contents file rest
    return (name, bytes) :: others

def classLines (c : ClassListing) : List String :=
  let opening := match c.superclass with
    | some s => s!"Class: {c.name} extends {s} \x7b"
    | none => s!"Class: {c.name} \x7b"
  opening :: c.texts.map ("    " ++ ·) ++ ["\x7d"]

def decodedLines (entry : String × Listing) : List String :=
  s!"// {entry.1} (version {versionText entry.2.version})" :: entry.2.classes.flatMap classLines

def failureLine (entry : String × Error) : String :=
  s!"// {entry.1} failed: {entry.2.text}"

def summaryLine (failed : Nat) : String :=
  if failed = 0 then "All done" else s!"Done, {failed} file(s) could not be decoded"

def batchLines (batch : Batch) : List String :=
  batch.decoded.flatMap decodedLines ++ batch.failures.map failureLine ++
    [summaryLine batch.failures.length]

def lines (host : Host) (args : List String) : List String :=
  if args.isEmpty then [usage]
  else match contents host.file args with
    | .error e => [s!"Aborted due to error: {e.text}"]
    | .ok files => batchLines (Batch.ofInputs (host.inputs files) host.options)

def output (host : Host) (args : List String) : String :=
  String.join ((lines host args).map (· ++ "\n"))

/-- Every failure is told on the standard output: the exit code is the same for all runs. -/
structure Session where
  output : String
  exitCode : UInt32
  deriving DecidableEq

def run (host : Host) (args : List String) : Session :=
  ⟨output host args, 0⟩

end CommandLine

end DexListing
