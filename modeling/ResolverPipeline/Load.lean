import ResolverPipeline.Files
import ResolverPipeline.Reading.Definition
import ResolverPipeline.Reading.Format
import ResolverPipeline.Trace

namespace ResolverPipeline

inductive LoadError
  | unreadable (path : String) (cause : FileError)
  | unsupportedFormat (path : String)
  | invalid (format : Format) (problem : Document.Problem)
  deriving DecidableEq

namespace LoadError

def problemText (format : Format) (p : Document.Problem) : String :=
  (p.message format.wording).getD "malformed text"

def message : LoadError → String
  | .unreadable path cause => "failed to read definition file " ++ path ++ ": " ++ cause.message
  | .unsupportedFormat path =>
    "unsupported definition format: " ++ path ++ " (expected .json, .yaml or .yml)"
  | .invalid format p =>
    "invalid " ++ format.label.map Char.toUpper ++ " definition: " ++ problemText format p

def causes : LoadError → List String
  | .unreadable _ cause => [cause.message]
  | .unsupportedFormat _ => []
  | .invalid format p => [problemText format p]

end LoadError

namespace Definition

def parse (format : Format) (text : String) : Except LoadError Definition :=
  (format.read Definition.read text).mapError (.invalid format)

def ofFile (path : String) (format : Format) (content : Except FileError String) :
    Traced LoadError Definition := do
  let text ← .ofExcept (content.mapError (.unreadable path))
  let d ← .ofExcept (parse format text)
  .tell (.definitionLoaded path format d.resolvers.size)
  return d

def load {m : Type → Type} [Monad m] [FileAccess m] (path : String) :
    m (Traced LoadError Definition) := do
  match Format.ofPath? path with
  | none => return .ofExcept (.error (.unsupportedFormat path))
  | some format => return ofFile path format (← readText path)

end Definition

end ResolverPipeline
