namespace DexListing

inductive Table where
  | strings
  | types
  | fields
  | methods
  | classes
  deriving DecidableEq

def Table.width : Table → Nat
  | .strings => 4
  | .types => 4
  | .fields => 8
  | .methods => 8
  | .classes => 32

def Table.noun : Table → String
  | .strings => "string"
  | .types => "type"
  | .fields => "field"
  | .methods => "method"
  | .classes => "class"

def Table.plural : Table → String
  | .classes => "classes"
  | t => t.noun ++ "s"

def Table.entryName : Table → String
  | .classes => "class_def"
  | t => t.noun ++ "_id"

def Table.sectionName (t : Table) : String :=
  t.entryName ++ "s"

def Table.placeholder (t : Table) (index : UInt8) : String :=
  s!"{t.noun}@{index.toNat}"

def headerSize : Nat := 112

end DexListing
