import ContractSurface.Interface.Names

/-! # Identifiers of generated modules

A name that TypeScript keeps for itself, or that a generated module uses for its own locals and
helpers, is made different from it by an underscore at its end.
-/
namespace ContractSurface.TypeScript

def keywords : List String :=
  ["break", "case", "catch", "class", "const", "continue", "debugger", "default", "delete", "do",
   "else", "enum", "export", "extends", "false", "finally", "for", "function", "if", "import",
   "in", "instanceof", "new", "null", "return", "super", "switch", "this", "throw", "true", "try",
   "typeof", "var", "void", "while", "with", "yield", "let", "static", "await", "implements",
   "interface", "package", "private", "protected", "public"]

/-- The names that generated modules define or bind themselves. -/
def generatedNames : List String :=
  ["contract", "api", "rl", "result", "choice", "state", "error", "readState", "toReceipt",
   "operations", "stateVariables", "MENU", "TRUTHY", "FALSY", "ERROR_HINTS", "runCli",
   "parseInteger", "parseBoolean", "parseBytes", "pickChoice", "formatValue", "reportError"]

def reserved : List String := keywords ++ generatedNames

def identifier (name : String) : String := if reserved.contains name then name ++ "_" else name

def bindingType (contractName : String) : String := "Deployed" ++ contractName ++ "Contract"

def banner (contractName : String) : List String :=
  ["// Auto-generated by compactgen – DO NOT EDIT",
   "// Contract: " ++ contractName,
   "// Regeneration overwrites this file; manual edits are lost.",
   ""]

def ofLines (lines : List String) : String := String.join (lines.map (· ++ "\n"))

end ContractSurface.TypeScript
