import ResolverPipeline.Step

namespace ResolverPipeline

inductive PipelineError
  | unsatisfiedRead (step : String) (slot : Slot)
  | duplicateStepName (name : String)
  deriving DecidableEq

def PipelineError.message : PipelineError → String
  | .unsatisfiedRead step slot =>
    "step '" ++ step ++ "' reads stash slot '" ++ slot.key ++ "' before any step writes it"
  | .duplicateStepName name => "duplicate step name: " ++ name

structure Pipeline where
  operation : Operation
  field : String
  steps : List Step
  extraFields : FieldMap
  stash : Stash
  deriving DecidableEq

namespace Pipeline

def new (operation : Operation) (field : String) : Pipeline :=
  ⟨operation, field, [], .empty, .seeded⟩

def has (p : Pipeline) (slot : Slot) : Bool := p.stash.has slot

def push (p : Pipeline) (step : Step) : Except PipelineError Pipeline :=
  match step.reads.find? fun slot => !p.has slot with
  | some slot => .error (.unsatisfiedRead step.name slot)
  | none =>
    if step.name ∈ p.steps.map Step.name then .error (.duplicateStepName step.name)
    else .ok { p with
      steps := p.steps ++ [step]
      stash := step.writes.elim p.stash p.stash.write }

def mergeExtraFields (p : Pipeline) (fields : FieldMap) : Pipeline :=
  { p with extraFields := p.extraFields.merge fields }

def stepNames (p : Pipeline) : List String := p.steps.map Step.name

def stepDependencies (p : Pipeline) : List Dependency := p.stepNames.map .step

def size (p : Pipeline) : Nat := p.steps.length

def isEmpty (p : Pipeline) : Bool := p.steps.isEmpty

end Pipeline

end ResolverPipeline
