import FlagSurvey.Config
import FlagSurvey.Toml.Document

/-! Configurations as files give them. Each section is a table of named fields, or an array of fields in
their order; what is not given has its default, and what is not known is passed over. -/
namespace FlagSurvey.Config

open Number Toml

inductive Fields where
  | named (entries : Entries)
  | placed (items : List Value)

def Fields.of? : Value → Option Fields
  | .table _ entries => some (.named entries)
  | .array items => some (.placed items)
  | .tables items => some (.placed (items.map (.table .header)))
  | .scalar (.moment _) => some (.named [])
  | .scalar _ => none

def Fields.get (fields : Fields) (name : String) (place : Nat) : Option Value :=
  match fields with
  | .named entries => entries.lookup name
  | .placed items => items[place]?

def Fields.read {α : Type} (fields : Fields) (name : String) (place : Nat) (reader : Value → Option α)
    (default : α) : Option α :=
  match fields.get name place with
  | some value => reader value
  | none => some default

def text? : Value → Option String
  | .scalar (.text value) => some value
  | _ => none

def natural? : Value → Option Nat
  | .scalar (.integer value) => if 0 ≤ value then some value.toNat else none
  | _ => none

/-- A number of seconds; an integer counts as the nearest float. -/
def seconds? : Value → Option Binary64
  | .scalar (.float value) => some value
  | .scalar (.integer value) => some (.ofInt value)
  | _ => none

def compilerOf? (value : Value) : Option CompilerSection := do
  let fields ← Fields.of? value
  let standard : CompilerSection := {}
  pure
    { path := ← fields.read "path" 0 text? standard.path
      targetHelp := ← fields.read "target_help" 1 text? standard.targetHelp
      optimizerHelp := ← fields.read "optimizer_help" 2 text? standard.optimizerHelp
      paramsHelp := ← fields.read "params_help" 3 text? standard.paramsHelp
      helpLimit := ← fields.read "help_limit_secs" 4 seconds? standard.helpLimit }

def probeOf? (value : Value) : Option ProbeSection := do
  let fields ← Fields.of? value
  let standard : ProbeSection := {}
  pure
    { testProgram := ← fields.read "test_program" 0 text? standard.testProgram
      compileLimit := ← fields.read "compile_limit_secs" 1 seconds? standard.compileLimit
      memoryLimit := ← fields.read "memory_limit_bytes" 2 (some <$> natural? ·) none }

def poolOf? (value : Value) : Option PoolSection := do
  let fields ← Fields.of? value
  let standard : PoolSection := {}
  pure
    { parallelism := ← fields.read "parallelism" 0 natural? standard.parallelism
      size := ← fields.read "size" 1 (some <$> natural? ·) none }

def paramsOf? (value : Value) : Option ParamsSection := do
  let fields ← Fields.of? value
  let standard : ParamsSection := {}
  pure
    { definitions := ← fields.read "definitions" 0 (some <$> text? ·) none
      lead := ← fields.read "prefix" 1 text? standard.lead
      separator := ← fields.read "separator" 2 text? standard.separator }

def outputOf? (value : Value) : Option OutputSection := do
  let fields ← Fields.of? value
  let standard : OutputSection := {}
  pure { path := ← fields.read "path" 0 text? standard.path }

def ofEntries? (entries : Entries) : Option Config := do
  let fields := Fields.named entries
  pure
    { compiler := ← fields.read "compiler" 0 compilerOf? {}
      probe := ← fields.read "probe" 1 probeOf? {}
      pool := ← fields.read "pool" 2 poolOf? {}
      params := ← fields.read "params" 3 paramsOf? {}
      output := ← fields.read "output" 4 outputOf? {} }

def ofText? (text : String) : Option Config := (Toml.read? text).bind ofEntries?

end FlagSurvey.Config
