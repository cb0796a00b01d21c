import ResolverPipeline.Cli.Usage
import ResolverPipeline.Compile
import ResolverPipeline.Json.Writer
import ResolverPipeline.Load
import ResolverPipeline.Yaml.Writer

namespace ResolverPipeline.Cli

structure Failure where
  message : String
  causes : List String

namespace Failure

def indentCause (first : String) (text : String) : List Char :=
  let margin := List.replicate first.length ' '
  first.toList ++ text.toList.flatMap fun c => if c == '\n' then c :: margin else [c]

def numbered (n : Nat) (text : String) : List Char :=
  let number := toString n
  indentCause (String.ofList (List.replicate (5 - number.length) ' ') ++ number ++ ": ") text

def causeLines : List String → List (List Char)
  | [] => []
  | [c] => [indentCause "    " c]
  | cs => cs.mapIdx numbered

def report (f : Failure) : String :=
  "Error: " ++ f.message ++
    (if f.causes.isEmpty then ""
      else "\n\nCaused by:" ++ String.ofList ((causeLines f.causes).flatMap ('\n' :: ·))) ++ "\n"

end Failure

structure Outcome where
  code : UInt32
  stdout : String := ""
  stderr : String := ""
  log : List Event := []

def Outcome.failed (log : List Event) (f : Failure) : Outcome :=
  { code := 1, stderr := f.report, log }

def render (api : Api) : OutputFormat → String
  | .json => Json.indented 0 (.ofApi api)
  | .yaml => Yaml.written (.ofApi api)

def build (target : Target) (loaded : Traced LoadError Definition) : Traced Failure Api := do
  let d ← loaded.mapError fun e =>
    ⟨"failed to load definition: " ++ target.definition, e.message :: e.causes⟩
  (compile target.handles d).mapError fun e =>
    ⟨"failed to compile definition: " ++ target.definition, e.message :: e.causes⟩

section

variable {m : Type → Type} [Monad m] [FileAccess m]

def buildTarget (target : Target) : m (Traced Failure Api) :=
  build target <$> Definition.load target.definition

def deliver (log : List Event) (api : Api) (format : OutputFormat) (output : Option String) :
    m Outcome := do
  match output with
  | none => return { code := 0, stdout := render api format ++ "\n", log }
  | some path =>
    match ← writeText path (render api format) with
    | .ok () =>
      return {
        code := 0
        stderr := "Wrote " ++ toString api.fields.length ++ " fields to " ++ path ++ "\n"
        log }
    | .error e => return .failed log ⟨"failed to write output: " ++ path, [e.message]⟩

def summary (api : Api) : String :=
  api.name ++ ": " ++ toString api.fields.length ++ " fields, " ++ toString api.steps.length ++
    " pipeline steps\n"

def runCommand : Command → m Outcome
  | .greet => return { code := 0, stdout := "rise - use --help to see available commands\n" }
  | .compile target format output => do
    let built ← buildTarget target
    match built.result with
    | .error f => return .failed built.log f
    | .ok api => deliver built.log api format output
  | .check target => do
    let built ← buildTarget target
    match built.result with
    | .error f => return .failed built.log f
    | .ok api => return { code := 0, stderr := summary api, log := built.log }

def misuse : Outcome := { code := 2, stderr := "error: invalid arguments\n\n" ++ Name.usage .root ++ "\n" }

def runRequest : Request → m Outcome
  | .run _ command => runCommand command
  | .help name => return { code := 0, stdout := name.help ++ "\n" }
  | .version => return { code := 0, stdout := versionText ++ "\n" }
  | .invalid => return misuse

def run (arguments : List String) : m Outcome := runRequest (.ofArguments arguments)

end

def Request.shows (r : Request) (e : Event) : Bool :=
  match r, e.level with
  | .run 0 _, .debug => false
  | _, _ => true

def eventLine (e : Event) : String :=
  e.level.name ++ " " ++ e.message ++ String.join (e.fields.map fun (k, v) => " " ++ k ++ "=" ++ v)

end ResolverPipeline.Cli
