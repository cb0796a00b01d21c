import ResolverPipeline.FieldMap
import ResolverPipeline.SortedMap

namespace ResolverPipeline

inductive Operation
  | query
  | mutation
  deriving DecidableEq

namespace Operation

def all : List Operation := [.query, .mutation]

def name : Operation → String
  | .query => "Query"
  | .mutation => "Mutation"

end Operation

inductive DbAction
  | get
  | list
  | create
  | remove
  deriving DecidableEq

namespace DbAction

def all : List DbAction := [.get, .list, .create, .remove]

def name : DbAction → String
  | .get => "get"
  | .list => "list"
  | .create => "create"
  | .remove => "remove"

end DbAction

/-- A key-value store operation.  Only a direct `list` looks at the keys. -/
structure DbAccess where
  action : DbAction
  pk : Option String := none
  sk : Option String := none
  deriving DecidableEq

inductive Descriptor
  | add (fields : FieldMap)
  | guard (pk sk : String)
  | db (access : DbAccess)
  | emit (event : String) (data : FieldMap)
  deriving DecidableEq

namespace Descriptor

def tag : Descriptor → String
  | .add _ => "add"
  | .guard _ _ => "guard"
  | .db _ => "db"
  | .emit _ _ => "emit"

def tags : List String := ["add", "guard", "db", "emit"]

def isExecutable : Descriptor → Bool
  | .add _ => false
  | _ => true

end Descriptor

inductive Resolver
  | single (descriptor : Descriptor)
  | pipeline (descriptors : List Descriptor)
  deriving DecidableEq

def Resolver.isPipeline : Resolver → Bool
  | .single _ => false
  | .pipeline _ => true

structure Resolvers where
  query : SortedMap Resolver := .empty
  mutation : SortedMap Resolver := .empty
  deriving DecidableEq

namespace Resolvers

/-- Every field with its operation, queries first, each group in the order of its names. -/
def fields (r : Resolvers) : List (Operation × String × Resolver) :=
  r.query.entries.map (fun e => (.query, e.1, e.2)) ++
    r.mutation.entries.map fun e => (.mutation, e.1, e.2)

def size (r : Resolvers) : Nat := r.query.size + r.mutation.size

def isEmpty (r : Resolvers) : Bool := r.query.isEmpty && r.mutation.isEmpty

@[simp] theorem length_fields (r : Resolvers) : r.fields.length = r.size := by
  simp [fields, size, SortedMap.size]

end Resolvers

structure AppConfig where
  name : String
  eventbus : Option String := none
  region : Option String := none
  deriving DecidableEq

namespace AppConfig

def eventBusOrDefault (c : AppConfig) : String := c.eventbus.getD "default"

def regionOrDefault (c : AppConfig) : String := c.region.getD "us-east-1"

def eventSource (c : AppConfig) : String := "source." ++ c.name

def tableName (c : AppConfig) : String := c.name ++ "-db"

end AppConfig

structure Definition where
  schema : String
  resolvers : Resolvers := {}
  config : AppConfig
  deriving DecidableEq

end ResolverPipeline
