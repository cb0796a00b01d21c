import ResolverPipeline.Definition
import ResolverPipeline.Stash

namespace ResolverPipeline

inductive StepKind
  | guard
  | get
  | list
  | create
  | remove
  | emitEvent
  deriving DecidableEq

namespace StepKind

def all : List StepKind := [.guard, .get, .list, .create, .remove, .emitEvent]

def name : StepKind → String
  | .guard => "guard"
  | .get => "get"
  | .list => "list"
  | .create => "create"
  | .remove => "remove"
  | .emitEvent => "emit_event"

def label : StepKind → String
  | .guard => "Guard"
  | .get => "Get"
  | .list => "List"
  | .create => "Create"
  | .remove => "Remove"
  | .emitEvent => "EmitEvent"

def fragment : StepKind → String
  | .guard => "guard"
  | .get => "dbget"
  | .list => "dbquery"
  | .create => "dbcreate"
  | .remove => "dbremove"
  | .emitEvent => "emit"

def writes : StepKind → Option Slot
  | .guard => none
  | .get | .list | .create | .remove => some .dbResult
  | .emitEvent => some .eventResult

def ofAction : DbAction → StepKind
  | .get => .get
  | .list => .list
  | .create => .create
  | .remove => .remove

end StepKind

structure Handles where
  schema : String := "api-schema"
  store : String := "DynamoDataSource"
  bus : String := "EventBridgeDataSource"
  deriving DecidableEq

/-- Something that must be registered before the artifact that names it. -/
inductive Dependency
  | schema (name : String)
  | dataSource (name : String)
  | step (name : String)
  deriving DecidableEq

namespace Dependency

def kindName : Dependency → String
  | .schema _ => "schema"
  | .dataSource _ => "data_source"
  | .step _ => "step"

def kindNames : List String := ["schema", "data_source", "step"]

def name : Dependency → String
  | .schema n | .dataSource n | .step n => n

end Dependency

structure Step where
  name : String
  kind : StepKind
  dataSource : String
  requestTemplate : String
  responseTemplate : String
  reads : List Slot
  writes : Option Slot
  dependsOn : List Dependency
  deriving DecidableEq

end ResolverPipeline
