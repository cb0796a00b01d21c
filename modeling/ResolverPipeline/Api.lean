import ResolverPipeline.Pipeline

namespace ResolverPipeline

inductive CompiledResolver
  | unit (dataSource : String)
  | pipeline (p : Pipeline)
  deriving DecidableEq

structure CompiledField where
  operation : Operation
  field : String
  resolver : CompiledResolver
  requestTemplate : String
  responseTemplate : String
  /-- The steps in execution order, then the data source and the schema. -/
  dependsOn : List Dependency
  deriving DecidableEq

namespace CompiledField

def pipeline? (f : CompiledField) : Option Pipeline :=
  match f.resolver with
  | .pipeline p => some p
  | .unit _ => none

def steps (f : CompiledField) : List Step := f.pipeline?.elim [] Pipeline.steps

def functions (f : CompiledField) : List String := f.steps.map Step.name

end CompiledField

structure Api where
  name : String
  region : String
  tableName : String
  eventBus : String
  schema : String
  fields : List CompiledField
  deriving DecidableEq

namespace Api

def field? (a : Api) (operation : Operation) (name : String) : Option CompiledField :=
  a.fields.find? fun f => f.operation = operation && f.field = name

def steps (a : Api) : List Step := a.fields.flatMap CompiledField.steps

end Api

end ResolverPipeline
