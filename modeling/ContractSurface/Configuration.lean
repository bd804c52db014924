import ContractSurface.Build.Settings
import ContractSurface.Call.Choice
import ContractSurface.Data.Toml.Reader
import ContractSurface.Files.Store

/-! # Configuration

How builds run and what sessions offer, as a file says it. A setting that the file does not mention
keeps its standard value, and a list that it mentions replaces the standard one. Names that are no
settings are passed over. Wherever a table of settings is wanted, a list may give the settings by
their order instead.
-/
namespace ContractSurface

structure Configuration where
  build : BuildSettings
  session : SessionOptions
  deriving DecidableEq, Repr

inductive ConfigurationError where
  | unreadable (file : UnreadableFile)
  | malformed (path : Path)
  deriving DecidableEq, Repr

def ConfigurationError.message : ConfigurationError → String
  | .unreadable file => file.message
  | .malformed path => s!"Parsing {path}"

open Toml

def BuildSettings.ofToml? (item : Toml) : Option BuildSettings := do
  let standard := BuildSettings.standard
  let es ← item.record? ["contract_dir", "source", "compiler", "compiler_output",
    "contract_build", "cli_dir", "cli_build", "debounce_ms"]
  return {
    contractDir := ← valueOr? es "contract_dir" standard.contractDir text?
    source := ← valueOr? es "source" standard.source fun item => item.text?.map some
    compiler := ← valueOr? es "compiler" standard.compiler (listOf? text?)
    compilerOutput := ← valueOr? es "compiler_output" standard.compilerOutput text?
    contractBuild := ← valueOr? es "contract_build" standard.contractBuild (listOf? text?)
    cliDir := ← valueOr? es "cli_dir" standard.cliDir text?
    cliBuild := ← valueOr? es "cli_build" standard.cliBuild (listOf? text?)
    debounceMs := ← valueOr? es "debounce_ms" standard.debounceMs natural? }

def Choice.ofToml? (item : Toml) : Option Choice := do
  let es ← item.record? ["label", "value"]
  return ⟨← value? es "label" text?, ← value? es "value" text?⟩

def ChoiceRule.ofToml? (item : Toml) : Option ChoiceRule := do
  let es ← item.record? ["name_contains", "choices"]
  return ⟨← value? es "name_contains" text?, ← value? es "choices" (listOf? Choice.ofToml?)⟩

def ErrorHint.ofToml? (item : Toml) : Option ErrorHint := do
  let es ← item.record? ["contains", "hint"]
  return ⟨← value? es "contains" text?, ← value? es "hint" text?⟩

def SessionOptions.ofToml? (item : Toml) : Option SessionOptions := do
  let standard := SessionOptions.standard
  let es ← item.record? ["choice_rules", "error_hints"]
  return ⟨← valueOr? es "choice_rules" standard.choiceRules (listOf? ChoiceRule.ofToml?),
    ← valueOr? es "error_hints" standard.errorHints (listOf? ErrorHint.ofToml?)⟩

namespace Configuration

def standard : Configuration := ⟨.standard, .standard⟩

def ofEntries? (es : Entries) : Option Configuration := do
  return ⟨← valueOr? es "build" .standard BuildSettings.ofToml?,
    ← valueOr? es "cli" .standard SessionOptions.ofToml?⟩

def ofText? (text : String) : Option Configuration := (Toml.parse? text).bind ofEntries?

/-- The file that is read when none is named. It may be missing. -/
def standardPath : Path := "compactgen.toml"

def load (files : FileStore) (path : Path) : Except ConfigurationError Configuration :=
  if !files.pathExists path && path.agrees standardPath then .ok standard
  else
    match files.load path with
    | .error file => .error (.unreadable file)
    | .ok content =>
      match ofText? content with
      | none => .error (.malformed path)
      | some configuration => .ok configuration

end Configuration

end ContractSurface
