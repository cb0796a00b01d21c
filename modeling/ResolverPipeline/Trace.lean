import ResolverPipeline.Format
import ResolverPipeline.Step

namespace ResolverPipeline

inductive Level
  | debug
  | info
  | warn
  deriving DecidableEq

def Level.name : Level → String
  | .debug => "DEBUG"
  | .info => "INFO"
  | .warn => "WARN"

inductive Event
  | definitionLoaded (path : String) (format : Format) (fields : Nat)
  | keysIgnored (step : String)
  | stepBuilt (step : String) (kind : StepKind)
  | pipelineAssembled (steps : Nat)
  | fieldCompiled (operation : Operation) (field : String) (pipeline : Bool) (steps : Nat)
  | definitionCompiled (fields : Nat)
  deriving DecidableEq

namespace Event

def level : Event → Level
  | .keysIgnored _ => .warn
  | .fieldCompiled .. => .info
  | _ => .debug

def message : Event → String
  | .definitionLoaded .. => "definition loaded"
  | .keysIgnored _ =>
    "pk/sk on a pipeline db step are ignored; keys come from the stash input"
  | .stepBuilt .. => "step built"
  | .pipelineAssembled _ => "pipeline assembled"
  | .fieldCompiled .. => "field compiled"
  | .definitionCompiled _ => "definition compiled"

def fields : Event → List (String × String)
  | .definitionLoaded path format n =>
    [("path", path), ("format", format.label), ("fields", toString n)]
  | .keysIgnored step => [("step", step)]
  | .stepBuilt step kind => [("step", step), ("kind", kind.label)]
  | .pipelineAssembled n => [("steps", toString n)]
  | .fieldCompiled operation field pipeline n =>
    [("operation", operation.name), ("field", field), ("pipeline", toString pipeline),
      ("steps", toString n)]
  | .definitionCompiled n => [("fields", toString n)]

end Event

/-- A result, or an error, with all that was logged up to there. -/
structure Traced (ε α : Type) where
  log : List Event
  result : Except ε α

namespace Traced

variable {ε ε' α β : Type}

def ofExcept (r : Except ε α) : Traced ε α := ⟨[], r⟩

def tell (e : Event) : Traced ε Unit := ⟨[e], .ok ()⟩

def bind (x : Traced ε α) (f : α → Traced ε β) : Traced ε β :=
  match x.result with
  | .ok a => ⟨x.log ++ (f a).log, (f a).result⟩
  | .error e => ⟨x.log, .error e⟩

instance : Monad (Traced ε) where
  pure a := ⟨[], .ok a⟩
  bind := bind

def mapError (f : ε → ε') (x : Traced ε α) : Traced ε' α := ⟨x.log, x.result.mapError f⟩

@[simp] theorem pure_def (a : α) : (pure a : Traced ε α) = ⟨[], .ok a⟩ := rfl

@[simp] theorem ok_bind (log : List Event) (a : α) (f : α → Traced ε β) :
    ((⟨log, .ok a⟩ : Traced ε α) >>= f) = ⟨log ++ (f a).log, (f a).result⟩ := rfl

@[simp] theorem error_bind (log : List Event) (e : ε) (f : α → Traced ε β) :
    ((⟨log, .error e⟩ : Traced ε α) >>= f) = ⟨log, .error e⟩ := rfl

end Traced

end ResolverPipeline
