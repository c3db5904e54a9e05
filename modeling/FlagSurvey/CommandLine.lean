import FlagSurvey.Config

/-! Command lines. An option takes the next word as its value, or what is attached to it; short flags may
share a word. The value of an option counts when the next option is met or the line ends, so that a word
that is no option at all is refused before a value that cannot be read. -/
namespace FlagSurvey

open Number

namespace CommandLine

inductive Slot where
  | config
  | compiler
  | source
  | testProgram
  | compileLimit
  | memoryLimit
  | parallelism
  | poolSize
  | targetInput
  | optInput
  | paramsInput
  | output
  deriving DecidableEq, Repr

inductive Flag where
  | debug
  | help
  | version
  deriving DecidableEq, Repr

inductive Choice where
  | slot (slot : Slot)
  | flag (flag : Flag)
  deriving DecidableEq, Repr

inductive Refusal where
  | unknownArgument
  | unreadableValue
  | missingValue
  | repeated
  | needlessValue
  | helpWanted
  | versionWanted
  deriving DecidableEq, Repr

def longOption? : String → Option Choice
  | "config" => some (.slot .config)
  | "compiler" => some (.slot .compiler)
  | "source" => some (.slot .source)
  | "test-program" => some (.slot .testProgram)
  | "compile-limit" => some (.slot .compileLimit)
  | "memory-limit" => some (.slot .memoryLimit)
  | "parallelism" => some (.slot .parallelism)
  | "pool-size" => some (.slot .poolSize)
  | "target-input" => some (.slot .targetInput)
  | "opt-input" => some (.slot .optInput)
  | "params-input" => some (.slot .paramsInput)
  | "output" => some (.slot .output)
  | "debug" => some (.flag .debug)
  | "help" => some (.flag .help)
  | "version" => some (.flag .version)
  | _ => none

def shortOption? : Char → Option Choice
  | 'c' => some (.slot .compiler)
  | 's' => some (.slot .source)
  | 't' => some (.slot .testProgram)
  | 'l' => some (.slot .compileLimit)
  | 'm' => some (.slot .memoryLimit)
  | 'p' => some (.slot .parallelism)
  | 'o' => some (.slot .output)
  | 'd' => some (.flag .debug)
  | 'h' => some (.flag .help)
  | 'V' => some (.flag .version)
  | _ => none

/-- Options whose value may look like an option, as the help flags of a compiler do. -/
def Slot.takesAnyWord : Slot → Bool
  | .targetInput | .optInput | .paramsInput => true
  | _ => false

end CommandLine

open CommandLine

structure Invocation where
  config : Option String := none
  overrides : Overrides := {}
  debug : Bool := false
  deriving DecidableEq, Repr

namespace Invocation

def logLevel (i : Invocation) : String := if i.debug then "debug" else "info"

def fill {α : Type} (old : Option α) (read : String → Except Refusal α) (word : String) :
    Except Refusal (Option α) :=
  if old.isSome then .error .repeated else some <$> read word

def path (word : String) : Except Refusal String :=
  if word.isEmpty then .error .missingValue else .ok word

def readable {α : Type} (value : Option α) : Except Refusal α :=
  match value with
  | some value => .ok value
  | none => .error .unreadableValue

def set (i : Invocation) (slot : Slot) (word : String) : Except Refusal Invocation := do
  let o := i.overrides
  match slot with
  | .config => pure { i with config := ← fill i.config path word }
  | .compiler => pure { i with overrides := { o with compiler := ← fill o.compiler .ok word } }
  | .source => pure { i with overrides := { o with definitions := ← fill o.definitions path word } }
  | .testProgram => pure { i with overrides := { o with testProgram := ← fill o.testProgram path word } }
  | .compileLimit =>
    let value ← fill o.compileLimit (fun w => readable (readBinary64? w)) word
    pure { i with overrides := { o with compileLimit := value } }
  | .memoryLimit =>
    let value ← fill o.memoryLimit (fun w => readable (readUnsigned? w)) word
    pure { i with overrides := { o with memoryLimit := value } }
  | .parallelism =>
    let value ← fill o.parallelism (fun w => readable (readUnsigned? w)) word
    pure { i with overrides := { o with parallelism := value } }
  | .poolSize =>
    let value ← fill o.poolSize (fun w => readable (readUnsigned? w)) word
    pure { i with overrides := { o with poolSize := value } }
  | .targetInput => pure { i with overrides := { o with targetHelp := ← fill o.targetHelp .ok word } }
  | .optInput =>
    pure { i with overrides := { o with optimizerHelp := ← fill o.optimizerHelp .ok word } }
  | .paramsInput => pure { i with overrides := { o with paramsHelp := ← fill o.paramsHelp .ok word } }
  | .output => pure { i with overrides := { o with output := ← fill o.output path word } }

def raise (i : Invocation) : Flag → Except Refusal Invocation
  | .debug => if i.debug then .error .repeated else .ok { i with debug := true }
  | .help => .error .helpWanted
  | .version => .error .versionWanted

/-- The option met last, if its value does not count yet. -/
inductive Pending where
  | nothing
  | awaiting (slot : Slot)
  | holding (slot : Slot) (word : String)
  deriving DecidableEq, Repr

def settle (i : Invocation) : Pending → Except Refusal Invocation
  | .nothing => .ok i
  | .awaiting _ => .error .missingValue
  | .holding slot word => i.set slot word

abbrev Progress := Invocation × Pending

def readShort (progress : Progress) : List Char → Except Refusal Progress
  | [] => .ok progress
  | c :: rest =>
    match shortOption? c with
    | none => .error .unknownArgument
    | some (.flag flag) => do
      let settled ← progress.1.settle progress.2
      readShort (← settled.raise flag, .nothing) rest
    | some (.slot slot) => do
      let settled ← progress.1.settle progress.2
      match rest with
      | [] => pure (settled, .awaiting slot)
      | '=' :: value => pure (← settled.set slot (String.ofList value), .nothing)
      | value => pure (← settled.set slot (String.ofList value), .nothing)

def readLong (progress : Progress) (body : List Char) : Except Refusal Progress :=
  let name := String.ofList (body.takeWhile (· != '='))
  let attached := match body.dropWhile (· != '=') with
    | _ :: value => some (String.ofList value)
    | [] => none
  match longOption? name, attached with
  | none, _ => .error .unknownArgument
  | some (.flag _), some _ => .error .needlessValue
  | some (.flag flag), none => do
    let settled ← progress.1.settle progress.2
    pure (← settled.raise flag, .nothing)
  | some (.slot slot), some value => do
    let settled ← progress.1.settle progress.2
    pure (← settled.set slot value, .nothing)
  | some (.slot slot), none => do
    let settled ← progress.1.settle progress.2
    pure (settled, .awaiting slot)

def readWords (progress : Progress) : List String → Except Refusal Invocation
  | [] => progress.1.settle progress.2
  | word :: rest =>
    let option : Except Refusal Invocation :=
      match word.toList with
      | ['-', '-'] => if rest.isEmpty then progress.1.settle progress.2 else .error .unknownArgument
      | '-' :: '-' :: body => (readLong progress body).bind fun next => readWords next rest
      | '-' :: c :: body => (readShort progress (c :: body)).bind fun next => readWords next rest
      | _ =>
        match progress.2 with
        | .awaiting slot => readWords (progress.1, .holding slot word) rest
        | _ => .error .unknownArgument
    match progress.2 with
    | .awaiting slot =>
      if slot.takesAnyWord then readWords (progress.1, .holding slot word) rest else option
    | _ => option

def ofWords (words : List String) : Except Refusal Invocation := readWords ({}, .nothing) words

end Invocation
end FlagSurvey
