import ResolverPipeline.Api

namespace ResolverPipeline

inductive Tree
  | text (s : String)
  | list (items : List Tree)
  | record (members : List (String × Tree))

namespace Tree

def ofFieldMap (m : FieldMap) : Tree := .record (m.entries.map fun e => (e.1, .text e.2))

def optional (name : String) (value : Option Tree) : List (String × Tree) :=
  value.toList.map (name, ·)

def ofOperation (o : Operation) : Tree := .text o.name

def ofAction (a : DbAction) : Tree := .text a.name

def ofDescriptor (d : Descriptor) : Tree :=
  .record (("type", .text d.tag) ::
    match d with
    | .add fields => fields.entries.map fun e => (e.1, .text e.2)
    | .guard pk sk => [("pk", .text pk), ("sk", .text sk)]
    | .db access =>
      [("action", ofAction access.action)] ++ optional "pk" (access.pk.map .text) ++
        optional "sk" (access.sk.map .text)
    | .emit event data => [("event", .text event), ("data", ofFieldMap data)])

def ofResolver : Resolver → Tree
  | .single d => ofDescriptor d
  | .pipeline ds => .list (ds.map ofDescriptor)

def ofResolvers (r : Resolvers) : Tree :=
  .record (group Operation.query.name r.query ++ group Operation.mutation.name r.mutation)
where
  group (name : String) (fields : SortedMap Resolver) : List (String × Tree) :=
    if fields.isEmpty then []
    else [(name, .record (fields.entries.map fun e => (e.1, ofResolver e.2)))]

def ofConfig (c : AppConfig) : Tree :=
  .record ([("name", .text c.name)] ++ optional "eventbus" (c.eventbus.map .text) ++
    optional "region" (c.region.map .text))

def ofDefinition (d : Definition) : Tree :=
  .record [("schema", .text d.schema), ("resolvers", ofResolvers d.resolvers),
    ("config", ofConfig d.config)]

def ofSlot (s : Slot) : Tree := .text s.name

def ofKind (k : StepKind) : Tree := .text k.name

def ofHandles (h : Handles) : Tree :=
  .record [("schema", .text h.schema), ("store", .text h.store), ("bus", .text h.bus)]

def ofDependency (d : Dependency) : Tree :=
  .record [("kind", .text d.kindName), ("name", .text d.name)]

def ofStep (s : Step) : Tree :=
  .record ([("name", .text s.name), ("kind", ofKind s.kind), ("data_source", .text s.dataSource),
    ("request_template", .text s.requestTemplate),
    ("response_template", .text s.responseTemplate),
    ("reads", .list (s.reads.map ofSlot))] ++
    optional "writes" (s.writes.map ofSlot) ++
    [("depends_on", .list (s.dependsOn.map ofDependency))])

def pipelineMembers (p : Pipeline) : List (String × Tree) :=
  [("operation", ofOperation p.operation), ("field", .text p.field),
    ("steps", .list (p.steps.map ofStep)), ("extra_fields", ofFieldMap p.extraFields)]

def ofPipeline (p : Pipeline) : Tree := .record (pipelineMembers p)

def ofCompiledResolver : CompiledResolver → Tree
  | .unit dataSource => .record [("kind", .text "unit"), ("data_source", .text dataSource)]
  | .pipeline p => .record (("kind", .text "pipeline") :: pipelineMembers p)

def ofCompiledField (f : CompiledField) : Tree :=
  .record [("operation", ofOperation f.operation), ("field", .text f.field),
    ("resolver", ofCompiledResolver f.resolver),
    ("request_template", .text f.requestTemplate),
    ("response_template", .text f.responseTemplate),
    ("depends_on", .list (f.dependsOn.map ofDependency))]

def ofApi (a : Api) : Tree :=
  .record [("name", .text a.name), ("region", .text a.region), ("table_name", .text a.tableName),
    ("event_bus", .text a.eventBus), ("schema", .text a.schema),
    ("fields", .list (a.fields.map ofCompiledField))]

end Tree

end ResolverPipeline
