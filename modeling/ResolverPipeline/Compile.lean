import ResolverPipeline.Api
import ResolverPipeline.Assembly
import ResolverPipeline.ResolverTemplates

namespace ResolverPipeline

structure CompileError where
  operation : Operation
  field : String
  source : FieldError
  deriving DecidableEq

namespace CompileError

def message (e : CompileError) : String :=
  e.operation.name ++ "." ++ e.field ++ ": " ++ e.source.message

def causes (e : CompileError) : List String := e.source.message :: e.source.causes

end CompileError

def compilePipeline (handles : Handles) (app : AppConfig) (operation : Operation) (field : String)
    (descriptors : List Descriptor) : Traced FieldError CompiledField := do
  let p ← assemble handles app operation field descriptors
  let templates ← .ofExcept (ResolverTemplates.pipeline p)
  .tell (.pipelineAssembled p.size)
  return {
    operation, field
    resolver := .pipeline p
    requestTemplate := templates.request
    responseTemplate := templates.response
    dependsOn := p.stepDependencies ++ [.dataSource handles.store, .schema handles.schema] }

def compileUnit (handles : Handles) (operation : Operation) (field : String) (access : DbAccess) :
    Except FieldError CompiledField := do
  let templates ← ResolverTemplates.unit access
  return {
    operation, field
    resolver := .unit handles.store
    requestTemplate := templates.request
    responseTemplate := templates.response
    dependsOn := [.dataSource handles.store, .schema handles.schema] }

def compileField (handles : Handles) (app : AppConfig) (operation : Operation) (field : String) :
    Resolver → Traced FieldError CompiledField
  | .single (.db access) => .ofExcept (compileUnit handles operation field access)
  | .single d => .ofExcept (.error (.unsupportedSingleStep d.tag))
  | .pipeline ds => compilePipeline handles app operation field ds

def compileEntry (handles : Handles) (app : AppConfig) (entry : Operation × String × Resolver) :
    Traced CompileError CompiledField := do
  let (operation, field, resolver) := entry
  let compiled ← (compileField handles app operation field resolver).mapError
    (⟨operation, field, ·⟩)
  .tell (.fieldCompiled operation field resolver.isPipeline compiled.functions.length)
  return compiled

def compileEntries (handles : Handles) (app : AppConfig) :
    List (Operation × String × Resolver) → Traced CompileError (List CompiledField)
  | [] => pure []
  | e :: rest => do
    let f ← compileEntry handles app e
    return f :: (← compileEntries handles app rest)

def compile (handles : Handles) (d : Definition) : Traced CompileError Api := do
  let fields ← compileEntries handles d.config d.resolvers.fields
  .tell (.definitionCompiled fields.length)
  return {
    name := d.config.name
    region := d.config.regionOrDefault
    tableName := d.config.tableName
    eventBus := d.config.eventBusOrDefault
    schema := d.schema
    fields }

end ResolverPipeline
