import DexListing.Error

namespace DexListing

inductive Level where
  | error
  | warn
  | info
  | debug
  deriving DecidableEq

def Level.name : Level → String
  | .error => "ERROR"
  | .warn => "WARN"
  | .info => "INFO"
  | .debug => "DEBUG"

inductive Record where
  | workersNotStarted (workers : Nat) (reason : String)
  | lossyStrings (count total : Nat)
  | stringsDecoded (total workers : Nat)
  | tablesDecoded (version : Option Nat) (strings types fields methods classes : Nat)
  | disassembling (name : String) (offset : UInt32)
  | unknownOpcode (opcode : UInt8) (position : Nat)
  | missingOperand (t : Table) (index : UInt8) (length : Nat)
  | batchDecoded (id : String) (classes : Nat)
  | batchFailed (id : String) (error : Error)
  deriving DecidableEq

def Record.level : Record → Level
  | workersNotStarted _ _ => .warn
  | lossyStrings _ _ => .warn
  | stringsDecoded _ _ => .debug
  | tablesDecoded _ _ _ _ _ _ => .info
  | disassembling _ _ => .debug
  | unknownOpcode _ _ => .warn
  | missingOperand _ _ _ => .warn
  | batchDecoded _ _ => .info
  | batchFailed _ _ => .error

def versionText : Option Nat → String
  | some v => s!"Some({v})"
  | none => "None"

def Record.text : Record → String
  | workersNotStarted workers reason =>
      s!"[strings] could not start {workers} workers ({reason}), " ++
        "decoding on the calling thread"
  | lossyStrings count total =>
      s!"[strings] {count} of {total} strings contained invalid UTF-8 and were decoded lossily"
  | stringsDecoded total workers =>
      s!"[strings] decoded {total} strings with {workers} workers"
  | tablesDecoded version strings types fields methods classes =>
      s!"[dex] version {versionText version}: {strings} strings, {types} types, " ++
        s!"{fields} fields, {methods} methods, {classes} classes"
  | disassembling name offset => s!"[dex] disassembling {name} at 0x{hex offset.toNat}"
  | unknownOpcode opcode position =>
      s!"[code] unknown opcode 0x{hexByte opcode} at 0x{hex position}"
  | missingOperand t index length =>
      s!"[render] {t.noun} index {index.toNat} OOB ({t.plural}.len={length})"
  | batchDecoded id classes => s!"[batch] {id}: {classes} classes"
  | batchFailed id error => s!"[batch] {id} failed: {error.text}"

end DexListing
