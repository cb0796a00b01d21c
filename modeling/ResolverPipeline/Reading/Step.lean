import ResolverPipeline.Document.Source
import ResolverPipeline.Step

namespace ResolverPipeline

open Document

section

variable {ν : Type} {m : Type → Type} [Monad m] [MonadExceptOf Problem m] [Source ν m]

def Document.readNamed {α : Type} (all : List α) (name : α → String) (v : ν) : m α := do
  let s ← variant (all.map name) v
  match all.find? fun a => name a == s with
  | some a => return a
  | none => within v (fail (.unknownVariant s (all.map name)))

def Operation.read (v : ν) : m Operation := readNamed Operation.all Operation.name v

def DbAction.read (v : ν) : m DbAction := readNamed DbAction.all DbAction.name v

def Slot.read (v : ν) : m Slot := readNamed Slot.all Slot.name v

def StepKind.read (v : ν) : m StepKind := readNamed StepKind.all StepKind.name v

namespace Handles

structure Parts where
  schema : Option String := none
  store : Option String := none
  bus : Option String := none

def readField (s : Parts) (name : String) (v : ν) : m Parts :=
  match name with
  | "schema" => return { s with schema := ← once "schema" s.schema (Source.text "a string" v) }
  | "store" => return { s with store := ← once "store" s.store (Source.text "a string" v) }
  | "bus" => return { s with bus := ← once "bus" s.bus (Source.text "a string" v) }
  | _ => do
    skip v
    return s

def read (v : ν) : m Handles := do
  let fields ← Source.fields "struct Handles" v
  within v do
    match fields with
    | .named es =>
      let s ← foldEntries "field identifier" readField ({} : Parts) es.pairs
      checkClosed es.closed
      return ⟨← require "schema" s.schema, ← require "store" s.store, ← require "bus" s.bus⟩
    | .positional is =>
      let expected := "struct Handles with 3 elements"
      let (schema, is) ← is.required 0 expected (Source.text "a string")
      let (store, is) ← is.required 1 expected (Source.text "a string")
      let (bus, is) ← is.required 2 expected (Source.text "a string")
      is.finish
      return ⟨schema, store, bus⟩

end Handles

namespace Dependency

def ofKind : String → String → Dependency
  | "schema", name => .schema name
  | "data_source", name => .dataSource name
  | _, name => .step name

/-- What has been met of a dependency: a name that comes before its kind is not looked at until then. -/
structure Parts where
  kind : Option String := none
  name : Option (Except Datum String) := none

def readKind (v : ν) : m String := variant kindNames v

def nameOf : Except Datum String → Except Fault String
  | .ok s => .ok s
  | .error (.string s) => .ok s
  | .error d => .error (.wrongType d.found "a string")

def readField (s : Parts) (key : String) (v : ν) : m Parts :=
  match key with
  | "kind" => do
    let kind ← once "kind" s.kind (readKind v)
    let name ← match s.name with
      | some n => pure (some (.ok (← lift (nameOf n))))
      | none => pure none
    return ⟨kind, name⟩
  | "name" => do
    let name ← once "name" s.name
      (if s.kind.isSome then Except.ok <$> Source.text "a string" v
        else Except.error <$> buffer "any value" v)
    return { s with name }
  | _ => do
    skip v
    return s

def read (v : ν) : m Dependency := do
  let expected := "adjacently tagged enum Dependency"
  let fields ← Source.fields expected v
  within v do
    match fields with
    | .named es =>
      let s ← foldEntries "\"kind\", \"name\", or other ignored fields" readField ({} : Parts)
        es.pairs
      checkClosed es.closed
      let kind ← require "kind" s.kind
      let name ← lift (nameOf (← require "name" s.name))
      return ofKind kind name
    | .positional is =>
      let (kind, is) ← is.required 0 expected readKind
      let (name, is) ← is.required 1 expected (Source.text "a string")
      is.finish
      return ofKind kind name

end Dependency

namespace Step

structure Parts where
  name : Option String := none
  kind : Option StepKind := none
  dataSource : Option String := none
  requestTemplate : Option String := none
  responseTemplate : Option String := none
  reads : Option (List Slot) := none
  writes : Option (Option Slot) := none
  dependsOn : Option (List Dependency) := none

def readSlot? (v : ν) : m (Option Slot) := do
  match ← Source.optional v with
  | none => return none
  | some v => some <$> Slot.read v

def readField (s : Parts) (name : String) (v : ν) : m Parts :=
  match name with
  | "name" => return { s with name := ← once "name" s.name (Source.text "a string" v) }
  | "kind" => return { s with kind := ← once "kind" s.kind (StepKind.read v) }
  | "data_source" => return { s with
      dataSource := ← once "data_source" s.dataSource (Source.text "a string" v) }
  | "request_template" => return { s with
      requestTemplate := ← once "request_template" s.requestTemplate (Source.text "a string" v) }
  | "response_template" => return { s with
      responseTemplate := ← once "response_template" s.responseTemplate (Source.text "a string" v) }
  | "reads" => return { s with reads := ← once "reads" s.reads (readList Slot.read v) }
  | "writes" => return { s with writes := ← once "writes" s.writes (readSlot? v) }
  | "depends_on" => return { s with
      dependsOn := ← once "depends_on" s.dependsOn (readList Dependency.read v) }
  | _ => do
    skip v
    return s

def read (v : ν) : m Step := do
  let fields ← Source.fields "struct Step" v
  within v do
    match fields with
    | .named es =>
      let s ← foldEntries "field identifier" readField ({} : Parts) es.pairs
      checkClosed es.closed
      return {
        name := ← require "name" s.name
        kind := ← require "kind" s.kind
        dataSource := ← require "data_source" s.dataSource
        requestTemplate := ← require "request_template" s.requestTemplate
        responseTemplate := ← require "response_template" s.responseTemplate
        reads := ← require "reads" s.reads
        writes := s.writes.join
        dependsOn := ← require "depends_on" s.dependsOn }
    | .positional is =>
      let expected := "struct Step with 8 elements"
      let (name, is) ← is.required 0 expected (Source.text "a string")
      let (kind, is) ← is.required 1 expected StepKind.read
      let (dataSource, is) ← is.required 2 expected (Source.text "a string")
      let (requestTemplate, is) ← is.required 3 expected (Source.text "a string")
      let (responseTemplate, is) ← is.required 4 expected (Source.text "a string")
      let (reads, is) ← is.required 5 expected (readList Slot.read)
      let (writes, is) ← is.required 6 expected readSlot?
      let (dependsOn, is) ← is.required 7 expected (readList Dependency.read)
      is.finish
      return { name, kind, dataSource, requestTemplate, responseTemplate, reads, writes, dependsOn }

end Step

end

end ResolverPipeline
