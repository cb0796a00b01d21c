import ResolverPipeline.Reference
import ResolverPipeline.Pipeline
import ResolverPipeline.Template.Builtin

namespace ResolverPipeline

inductive FieldError
  | reference (location : String) (source : ReferenceError)
  | emptyPipeline
  | noExecutableSteps
  | unsupportedSingleStep (tag : String)
  | missingKey (action : DbAction) (key : String)
  | pipeline (source : PipelineError)
  | template (source : TemplateError)
  deriving DecidableEq

namespace FieldError

def message : FieldError → String
  | .reference location source => "invalid reference at " ++ location ++ ": " ++ source.message
  | .emptyPipeline => "pipeline has no steps"
  | .noExecutableSteps => "pipeline has no executable steps (only 'add' descriptors)"
  | .unsupportedSingleStep tag =>
    "'" ++ tag ++ "' descriptors are only supported inside a pipeline"
  | .missingKey action key => "'" ++ action.name ++ "' requires a '" ++ key ++ "' value"
  | .pipeline source => source.message
  | .template source => "template rendering failed: " ++ source.message

def causes : FieldError → List String
  | .reference _ source => [source.message]
  | .template source => [source.message]
  | _ => []

end FieldError

def locate {α : Type} (location : String) (result : Except ReferenceError α) :
    Except FieldError α :=
  result.mapError (.reference location)

def Template.fill (t : Template) (context : Template.Context) : Except FieldError String :=
  (Template.renderBuiltin t.name context).mapError .template

end ResolverPipeline
