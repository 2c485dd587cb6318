import DexListing.Instruction.Set

namespace DexListing.Dalvik

def va : Piece := .register .a
def vb : Piece := .register .b
def vaa : Piece := .register .aa
def target : Piece := .label .aa

def plain (pieces : List Piece) : Template :=
  ⟨pieces, .none, []⟩

def move : Template := plain [va, " = ", vb, ";"]
def moveResult : Template := plain [vaa, " = result;"]
def returnRegister : Template := plain ["return ", vaa, ";"]
def constant (shift : Nat) : Template := ⟨[vaa, " = "], .number shift, [";"]⟩
def constantString : Template := ⟨[vaa, " = \""], .string, ["\";"]⟩
def filledArray : Template := ⟨["new "], .type, ["\x7b...\x7d;"]⟩
def jump : Template := plain ["goto ", target, ";"]

def compareLess : Template :=
  plain [va, " = (", vb, " < ", vaa, ") ? -1 : ((", vb, " == ", vaa, ") ? 0 : 1);"]

def compareGreater : Template :=
  plain [va, " = (", vb, " > ", vaa, ") ? 1 : ((", vb, " == ", vaa, ") ? 0 : -1);"]

def compareLong : Template :=
  plain [va, " = (", vb, " == ", vaa, ") ? 0 : ((", vb, " < ", vaa, ") ? -1 : 1);"]

def branch (op : String) : Template :=
  plain ["if (", va, " ", op, " ", vb, ") goto ", target, ";"]

def branchZero (op : String) : Template :=
  plain ["if (", vaa, " ", op, " 0) goto ", target, ";"]

def arrayGet : Template := plain [va, " = ", vb, "[", vaa, "];"]
def arrayPut : Template := plain [vb, "[", vaa, "] = ", va, ";"]
def instanceGet : Template := ⟨[va, " = ", vb, "."], .field, [";"]⟩
def instancePut : Template := ⟨[vb, "."], .field, [" = ", va, ";"]⟩
def staticGet : Template := ⟨[vaa, " = "], .field, [";"]⟩
def staticPut : Template := ⟨[], .field, [" = ", vaa, ";"]⟩

def invokeVirtual : Template := ⟨[va, "."], .method, ["(...);"]⟩
def invokeSuper : Template := ⟨["super."], .method, ["(...);"]⟩
def invokeDirect : Template := ⟨[], .method, ["(...);"]⟩
def invokeStatic : Template := ⟨[], .ownedMethod, ["(...);"]⟩

def binary (op : String) : Template := plain [va, " = ", vb, " ", op, " ", vaa, ";"]
def update (op : String) : Template := plain [va, " ", op, "= ", vb, ";"]

def binaryLiteral (op : String) : Template :=
  ⟨[va, " = ", vb, " ", op, " "], .number 0, [";"]⟩

def reverseSubtract : Template := ⟨[va, " = "], .number 0, [" - ", vb, ";"]⟩

/-- The instructions that have a line of their own; operands past the first code unit are
read from the operand byte. -/
def instructions : List Instruction := [
  ⟨0x00, "nop", .none, plain [], none⟩,
  ⟨0x01, "move", .none, move, none⟩,
  ⟨0x02, "move/from16", .none, move, none⟩,
  ⟨0x03, "move/16", .none, move, none⟩,
  ⟨0x04, "move-wide", .none, move, some "wide"⟩,
  ⟨0x05, "move-wide/from16", .none, move, some "wide"⟩,
  ⟨0x06, "move-wide/16", .none, move, some "wide"⟩,
  ⟨0x07, "move-object", .none, move, some "object"⟩,
  ⟨0x08, "move-object/from16", .none, move, some "object"⟩,
  ⟨0x09, "move-object/16", .none, move, some "object"⟩,
  ⟨0x0a, "move-result", .none, moveResult, none⟩,
  ⟨0x0b, "move-result-wide", .none, moveResult, some "wide"⟩,
  ⟨0x0c, "move-result-object", .none, moveResult, some "object"⟩,
  ⟨0x0d, "move-exception", .none, plain [vaa, " = exception;"], none⟩,
  ⟨0x0e, "return-void", .none, plain ["return;"], none⟩,
  ⟨0x0f, "return", .none, returnRegister, none⟩,
  ⟨0x10, "return-wide", .none, returnRegister, some "wide"⟩,
  ⟨0x11, "return-object", .none, returnRegister, some "object"⟩,
  ⟨0x12, "const/4", .none, plain [va, " = ", .literal, ";"], none⟩,
  ⟨0x13, "const/16", .rawValue, constant 0, none⟩,
  ⟨0x14, "const", .rawValue, constant 0, none⟩,
  ⟨0x15, "const/high16", .rawValue, constant 16, none⟩,
  ⟨0x16, "const-wide/16", .rawValue, constant 0, some "wide"⟩,
  ⟨0x17, "const-wide/32", .rawValue, constant 0, some "wide"⟩,
  ⟨0x18, "const-wide", .rawValue, constant 0, some "wide"⟩,
  ⟨0x19, "const-wide/high16", .rawValue, constant 48, some "wide"⟩,
  ⟨0x1a, "const-string", .strings, constantString, none⟩,
  ⟨0x1b, "const-string/jumbo", .strings, constantString, none⟩,
  ⟨0x1c, "const-class", .types, ⟨[vaa, " = "], .type, [".class;"]⟩, none⟩,
  ⟨0x1d, "monitor-enter", .none, plain ["synchronized(", vaa, ") \x7b"], none⟩,
  ⟨0x1e, "monitor-exit", .none, plain ["\x7d"], some "end synchronized"⟩,
  ⟨0x1f, "check-cast", .types, ⟨[vaa, " = ("], .type, [") ", vaa, ";"]⟩, none⟩,
  ⟨0x20, "instance-of", .types, ⟨[va, " = (", vb, " instanceof "], .type, [");"]⟩, none⟩,
  ⟨0x21, "array-length", .none, plain [va, " = ", vb, ".length;"], none⟩,
  ⟨0x22, "new-instance", .types, ⟨[vaa, " = new "], .type, [";"]⟩, none⟩,
  ⟨0x23, "new-array", .types, ⟨[va, " = new "], .type, ["[", vb, "];"]⟩, none⟩,
  ⟨0x24, "filled-new-array", .types, filledArray, none⟩,
  ⟨0x25, "filled-new-array/range", .types, filledArray, some "range"⟩,
  ⟨0x26, "fill-array-data", .none, plain ["// fill array with data"], none⟩,
  ⟨0x27, "throw", .none, plain ["throw ", vaa, ";"], none⟩,
  ⟨0x28, "goto", .none, jump, none⟩,
  ⟨0x29, "goto/16", .none, jump, some "16-bit offset"⟩,
  ⟨0x2a, "goto/32", .none, jump, some "32-bit offset"⟩,
  ⟨0x2d, "cmpl-float", .none, compareLess, none⟩,
  ⟨0x2e, "cmpg-float", .none, compareGreater, none⟩,
  ⟨0x2f, "cmpl-double", .none, compareLess, some "double"⟩,
  ⟨0x30, "cmpg-double", .none, compareGreater, some "double"⟩,
  ⟨0x31, "cmp-long", .none, compareLong, some "long"⟩,
  ⟨0x32, "if-eq", .none, branch "==", none⟩,
  ⟨0x33, "if-ne", .none, branch "!=", none⟩,
  ⟨0x34, "if-lt", .none, branch "<", none⟩,
  ⟨0x35, "if-ge", .none, branch ">=", none⟩,
  ⟨0x36, "if-gt", .none, branch ">", none⟩,
  ⟨0x37, "if-le", .none, branch "<=", none⟩,
  ⟨0x38, "if-eqz", .none, branchZero "==", none⟩,
  ⟨0x39, "if-nez", .none, branchZero "!=", none⟩,
  ⟨0x3a, "if-ltz", .none, branchZero "<", none⟩,
  ⟨0x3b, "if-gez", .none, branchZero ">=", none⟩,
  ⟨0x3c, "if-gtz", .none, branchZero ">", none⟩,
  ⟨0x3d, "if-lez", .none, branchZero "<=", none⟩,
  ⟨0x44, "aget", .none, arrayGet, none⟩,
  ⟨0x45, "aget-wide", .none, arrayGet, some "wide"⟩,
  ⟨0x46, "aget-object", .none, arrayGet, some "object"⟩,
  ⟨0x47, "aget-boolean", .none, arrayGet, some "boolean"⟩,
  ⟨0x48, "aget-byte", .none, arrayGet, some "byte"⟩,
  ⟨0x49, "aget-char", .none, arrayGet, some "char"⟩,
  ⟨0x4a, "aget-short", .none, arrayGet, some "short"⟩,
  ⟨0x4b, "aput", .none, arrayPut, none⟩,
  ⟨0x4c, "aput-wide", .none, arrayPut, some "wide"⟩,
  ⟨0x4d, "aput-object", .none, arrayPut, some "object"⟩,
  ⟨0x4e, "aput-boolean", .none, arrayPut, some "boolean"⟩,
  ⟨0x4f, "aput-byte", .none, arrayPut, some "byte"⟩,
  ⟨0x50, "aput-char", .none, arrayPut, some "char"⟩,
  ⟨0x51, "aput-short", .none, arrayPut, some "short"⟩,
  ⟨0x52, "iget", .fields, instanceGet, none⟩,
  ⟨0x53, "iget-wide", .fields, instanceGet, some "wide"⟩,
  ⟨0x54, "iget-object", .fields, instanceGet, some "object"⟩,
  ⟨0x55, "iget-boolean", .fields, instanceGet, some "boolean"⟩,
  ⟨0x56, "iget-byte", .fields, instanceGet, some "byte"⟩,
  ⟨0x57, "iget-char", .fields, instanceGet, some "char"⟩,
  ⟨0x58, "iget-short", .fields, instanceGet, some "short"⟩,
  ⟨0x59, "iput", .fields, instancePut, none⟩,
  ⟨0x5a, "iput-wide", .fields, instancePut, some "wide"⟩,
  ⟨0x5b, "iput-object", .fields, instancePut, some "object"⟩,
  ⟨0x5c, "iput-boolean", .fields, instancePut, some "boolean"⟩,
  ⟨0x5d, "iput-byte", .fields, instancePut, some "byte"⟩,
  ⟨0x5e, "iput-char", .fields, instancePut, some "char"⟩,
  ⟨0x5f, "iput-short", .fields, instancePut, some "short"⟩,
  ⟨0x60, "sget", .fields, staticGet, some "static"⟩,
  ⟨0x61, "sget-wide", .fields, staticGet, some "static wide"⟩,
  ⟨0x62, "sget-object", .fields, staticGet, some "static object"⟩,
  ⟨0x63, "sget-boolean", .fields, staticGet, some "static boolean"⟩,
  ⟨0x64, "sget-byte", .fields, staticGet, some "static byte"⟩,
  ⟨0x65, "sget-char", .fields, staticGet, some "static char"⟩,
  ⟨0x66, "sget-short", .fields, staticGet, some "static short"⟩,
  ⟨0x67, "sput", .fields, staticPut, some "static"⟩,
  ⟨0x68, "sput-wide", .fields, staticPut, some "static wide"⟩,
  ⟨0x69, "sput-object", .fields, staticPut, some "static object"⟩,
  ⟨0x6a, "sput-boolean", .fields, staticPut, some "static boolean"⟩,
  ⟨0x6b, "sput-byte", .fields, staticPut, some "static byte"⟩,
  ⟨0x6c, "sput-char", .fields, staticPut, some "static char"⟩,
  ⟨0x6d, "sput-short", .fields, staticPut, some "static short"⟩,
  ⟨0x6e, "invoke-virtual", .methods, invokeVirtual, none⟩,
  ⟨0x6f, "invoke-super", .methods, invokeSuper, none⟩,
  ⟨0x70, "invoke-direct", .methods, invokeDirect, none⟩,
  ⟨0x71, "invoke-static", .methods, invokeStatic, none⟩,
  ⟨0x72, "invoke-interface", .methods, invokeVirtual, some "interface"⟩,
  ⟨0x74, "invoke-virtual/range", .methods, invokeVirtual, some "range"⟩,
  ⟨0x75, "invoke-super/range", .methods, invokeSuper, some "range"⟩,
  ⟨0x76, "invoke-direct/range", .methods, invokeDirect, some "range"⟩,
  ⟨0x77, "invoke-static/range", .methods, invokeStatic, some "range"⟩,
  ⟨0x78, "invoke-interface/range", .methods, invokeVirtual, some "interface, range"⟩,
  ⟨0x90, "add-int", .none, binary "+", none⟩,
  ⟨0x91, "sub-int", .none, binary "-", none⟩,
  ⟨0x92, "mul-int", .none, binary "*", none⟩,
  ⟨0x93, "div-int", .none, binary "/", none⟩,
  ⟨0x94, "rem-int", .none, binary "%", none⟩,
  ⟨0x95, "and-int", .none, binary "&", none⟩,
  ⟨0x96, "or-int", .none, binary "|", none⟩,
  ⟨0x97, "xor-int", .none, binary "^", none⟩,
  ⟨0x98, "shl-int", .none, binary "<<", none⟩,
  ⟨0x99, "shr-int", .none, binary ">>", none⟩,
  ⟨0x9a, "ushr-int", .none, binary ">>>", none⟩,
  ⟨0xb0, "add-int/2addr", .none, update "+", none⟩,
  ⟨0xb1, "sub-int/2addr", .none, update "-", none⟩,
  ⟨0xb2, "mul-int/2addr", .none, update "*", none⟩,
  ⟨0xb3, "div-int/2addr", .none, update "/", none⟩,
  ⟨0xb4, "rem-int/2addr", .none, update "%", none⟩,
  ⟨0xb5, "and-int/2addr", .none, update "&", none⟩,
  ⟨0xb6, "or-int/2addr", .none, update "|", none⟩,
  ⟨0xb7, "xor-int/2addr", .none, update "^", none⟩,
  ⟨0xb8, "shl-int/2addr", .none, update "<<", none⟩,
  ⟨0xb9, "shr-int/2addr", .none, update ">>", none⟩,
  ⟨0xba, "ushr-int/2addr", .none, update ">>>", none⟩,
  ⟨0xd0, "add-int/lit16", .rawValue, binaryLiteral "+", none⟩,
  ⟨0xd1, "rsub-int", .rawValue, reverseSubtract, none⟩,
  ⟨0xd2, "mul-int/lit16", .rawValue, binaryLiteral "*", none⟩,
  ⟨0xd3, "div-int/lit16", .rawValue, binaryLiteral "/", none⟩,
  ⟨0xd4, "rem-int/lit16", .rawValue, binaryLiteral "%", none⟩,
  ⟨0xd5, "and-int/lit16", .rawValue, binaryLiteral "&", none⟩,
  ⟨0xd6, "or-int/lit16", .rawValue, binaryLiteral "|", none⟩,
  ⟨0xd7, "xor-int/lit16", .rawValue, binaryLiteral "^", none⟩,
  ⟨0xd8, "add-int/lit8", .rawValue, binaryLiteral "+", none⟩,
  ⟨0xd9, "rsub-int/lit8", .rawValue, reverseSubtract, none⟩,
  ⟨0xda, "mul-int/lit8", .rawValue, binaryLiteral "*", none⟩,
  ⟨0xdb, "div-int/lit8", .rawValue, binaryLiteral "/", none⟩,
  ⟨0xdc, "rem-int/lit8", .rawValue, binaryLiteral "%", none⟩,
  ⟨0xdd, "and-int/lit8", .rawValue, binaryLiteral "&", none⟩,
  ⟨0xde, "or-int/lit8", .rawValue, binaryLiteral "|", none⟩,
  ⟨0xdf, "xor-int/lit8", .rawValue, binaryLiteral "^", none⟩,
  ⟨0xe0, "shl-int/lit8", .rawValue, binaryLiteral "<<", none⟩,
  ⟨0xe1, "shr-int/lit8", .rawValue, binaryLiteral ">>", none⟩,
  ⟨0xe2, "ushr-int/lit8", .rawValue, binaryLiteral ">>>", none⟩]

def instructionSet : InstructionSet :=
  .ofList instructions

theorem sound_of_mem : ∀ x ∈ instructions, x.Sound := by
  decide +kernel

theorem sound_instructionSet : instructionSet.Sound :=
  InstructionSet.sound_ofList sound_of_mem

end DexListing.Dalvik
