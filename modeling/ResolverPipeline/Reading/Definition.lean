import ResolverPipeline.Reading.Descriptor

namespace ResolverPipeline

open Document

section

variable {ν : Type} {m : Type → Type} [Monad m] [MonadExceptOf Problem m] [Source ν m]

def Document.readText? (v : ν) : m (Option String) := do
  match ← Source.optional v with
  | none => return none
  | some v => some <$> Source.text "a string" v

def Document.readRaw (v : ν) : m String := do
  let s ← shape v
  within v do
    match s with
    | .scalar f => lift (rawText f)
    | .sequence _ => lift (rawText .sequence)
    | .map _ => lift (rawText .map)

def FieldMap.read (v : ν) : m FieldMap := do
  let es ← Source.entries "a map" v
  within v do
    let fields ← foldEntries "a string"
      (fun fields key v => return fields.insert key (← readRaw v)) FieldMap.empty es.pairs
    checkClosed es.closed
    return fields

namespace Resolver

def read (v : ν) : m Resolver := do
  let s ← shape v
  within v do
    match s with
    | .map es => do
      let (tag, content) ← Descriptor.readEntries es
      return .single (← lift (Descriptor.ofContent tag content))
    | .sequence is => do
      let ds ← readItems Descriptor.read is.nodes
      checkClosed is.closed
      return .pipeline ds
    | .scalar f =>
      fail (.wrongType f "a step descriptor or a sequence of step descriptors")

/-- The fields of one operation.  The last resolver of a field counts. -/
def readGroup (v : ν) : m (SortedMap Resolver) := do
  let es ← Source.entries "a map" v
  within v do
    let fields ← foldEntries "a string"
      (fun fields name v => return fields.insert name (← read v)) SortedMap.empty es.pairs
    checkClosed es.closed
    return fields

end Resolver

namespace Resolvers

structure Parts where
  query : Option (SortedMap Resolver) := none
  mutation : Option (SortedMap Resolver) := none

def readField (s : Parts) (name : String) (v : ν) : m Parts :=
  match name with
  | "Query" => return { s with query := ← once "Query" s.query (Resolver.readGroup v) }
  | "Mutation" => return { s with mutation := ← once "Mutation" s.mutation (Resolver.readGroup v) }
  | _ => do
    skip v
    return s

def read (v : ν) : m Resolvers := do
  let fields ← Source.fields "struct Resolvers" v
  within v do
    match fields with
    | .named es =>
      let s ← foldEntries "field identifier" readField ({} : Parts) es.pairs
      checkClosed es.closed
      return ⟨s.query.getD .empty, s.mutation.getD .empty⟩
    | .positional is =>
      let (query, is) ← is.optional SortedMap.empty Resolver.readGroup
      let (mutation, is) ← is.optional SortedMap.empty Resolver.readGroup
      is.finish
      return ⟨query, mutation⟩

end Resolvers

namespace AppConfig

structure Parts where
  name : Option String := none
  eventbus : Option (Option String) := none
  region : Option (Option String) := none

def readField (s : Parts) (name : String) (v : ν) : m Parts :=
  match name with
  | "name" => return { s with name := ← once "name" s.name (Source.text "a string" v) }
  | "eventbus" => return { s with eventbus := ← once "eventbus" s.eventbus (readText? v) }
  | "region" => return { s with region := ← once "region" s.region (readText? v) }
  | _ => do
    skip v
    return s

def read (v : ν) : m AppConfig := do
  let fields ← Source.fields "struct AppConfig" v
  within v do
    match fields with
    | .named es =>
      let s ← foldEntries "field identifier" readField ({} : Parts) es.pairs
      checkClosed es.closed
      return ⟨← require "name" s.name, s.eventbus.join, s.region.join⟩
    | .positional is =>
      let (name, is) ← is.required 0 "struct AppConfig with 3 elements" (Source.text "a string")
      let (eventbus, is) ← is.optional none readText?
      let (region, is) ← is.optional none readText?
      is.finish
      return ⟨name, eventbus, region⟩

end AppConfig

namespace Definition

structure Parts where
  schema : Option String := none
  resolvers : Option Resolvers := none
  config : Option AppConfig := none

def readField (s : Parts) (name : String) (v : ν) : m Parts :=
  match name with
  | "schema" => return { s with schema := ← once "schema" s.schema (Source.text "a string" v) }
  | "resolvers" => return { s with resolvers := ← once "resolvers" s.resolvers (Resolvers.read v) }
  | "config" => return { s with config := ← once "config" s.config (AppConfig.read v) }
  | _ => do
    skip v
    return s

def read (v : ν) : m Definition := do
  let fields ← Source.fields "struct Definition" v
  within v do
    match fields with
    | .named es =>
      let s ← foldEntries "field identifier" readField ({} : Parts) es.pairs
      checkClosed es.closed
      return ⟨← require "schema" s.schema, s.resolvers.getD {}, ← require "config" s.config⟩
    | .positional is =>
      let expected := "struct Definition with 3 elements"
      let (schema, is) ← is.required 0 expected (Source.text "a string")
      let (resolvers, is) ← is.optional {} Resolvers.read
      let (config, is) ← is.required 2 expected AppConfig.read
      is.finish
      return ⟨schema, resolvers, config⟩

end Definition

end

end ResolverPipeline
