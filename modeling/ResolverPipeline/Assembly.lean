import ResolverPipeline.Step.Builder
import ResolverPipeline.Trace

/-!
Pipelines from descriptors.  `add` descriptors only enrich the extra fields; every other descriptor
becomes one step, in the order of declaration.
-/

namespace ResolverPipeline

def stepName (operation : Operation) (field : String) (kind : StepKind) (ordinal : Nat) : String :=
  (match operation with
    | .mutation => "m"
    | .query => "q") ++ field ++ kind.fragment ++ toString ordinal

namespace Pipeline

def nextName (p : Pipeline) (kind : StepKind) : String :=
  stepName p.operation p.field kind p.size

def nextScope (p : Pipeline) : Scope := .pipeline (p.has .dbResult)

def extend (p : Pipeline) (step : Step) : Traced FieldError Pipeline := do
  .tell (.stepBuilt step.name step.kind)
  .ofExcept ((p.push step).mapError .pipeline)

end Pipeline

def AppConfig.envelope (app : AppConfig) (event : String) (detail : FieldMap) : Step.Envelope :=
  ⟨app.eventBusOrDefault, app.eventSource, event, detail⟩

def assembleNext (handles : Handles) (app : AppConfig) (p : Pipeline) :
    Descriptor → Traced FieldError Pipeline
  | .add fields => pure (p.mergeExtraFields fields)
  | .guard pk sk => do
    let step ← .ofExcept (Step.guard handles (p.nextName .guard) pk sk p.nextScope)
    p.extend step
  | .db access => do
    let name := p.nextName (.ofAction access.action)
    if access.pk.isSome || access.sk.isSome then .tell (.keysIgnored name)
    let step ← .ofExcept (Step.data handles name access.action)
    p.extend step
  | .emit event data => do
    let step ← .ofExcept
      (Step.emit handles (p.nextName .emitEvent) (app.envelope event data) p.nextScope)
    p.extend step

def assembleAll (handles : Handles) (app : AppConfig) (p : Pipeline) :
    List Descriptor → Traced FieldError Pipeline
  | [] => pure p
  | d :: rest => do
    let p ← assembleNext handles app p d
    assembleAll handles app p rest

def assemble (handles : Handles) (app : AppConfig) (operation : Operation) (field : String)
    (descriptors : List Descriptor) : Traced FieldError Pipeline :=
  if descriptors.isEmpty then .ofExcept (.error .emptyPipeline)
  else if !descriptors.any Descriptor.isExecutable then .ofExcept (.error .noExecutableSteps)
  else assembleAll handles app (.new operation field) descriptors

end ResolverPipeline
