import ResolverPipeline.FieldError

namespace ResolverPipeline.Step

structure Envelope where
  bus : String
  source : String
  event : String
  detail : FieldMap

def location (name part : String) : String := "step '" ++ name ++ "' " ++ part

def noteRead (scope : Scope) (slots : List Slot) (e : Expression) : List Slot :=
  match e.reads scope with
  | some s => if s ∈ slots then slots else slots ++ [s]
  | none => slots

/-- The slots that the expressions read, each once, in order of first use. -/
def slotsRead (exprs : List Expression) (scope : Scope) : List Slot :=
  exprs.foldl (noteRead scope) []

def build (name : String) (kind : StepKind) (schema dataSource request response : String)
    (reads : List Slot) : Step where
  name := name
  kind := kind
  dataSource := dataSource
  requestTemplate := request
  responseTemplate := response
  reads := reads
  writes := kind.writes
  dependsOn := [.dataSource dataSource, .schema schema]

def guard (handles : Handles) (name pk sk : String) (scope : Scope) : Except FieldError Step := do
  let pk ← locate (location name "pk") (resolve pk scope)
  let sk ← locate (location name "sk") (resolve sk scope)
  let request ← Template.guardRequest.fill [("pk", .text pk.text), ("sk", .text sk.text)]
  let response ← Template.guardResponse.fill []
  return build name .guard handles.schema handles.store request response (slotsRead [pk, sk] scope)

def storeTemplate : DbAction → Template × String
  | .get => (Template.getItemRequest, "$ctx.result")
  | .list => (Template.queryRequest, "$ctx.result.items")
  | .create => (Template.putItemRequest, "$ctx.result")
  | .remove => (Template.deleteItemRequest, "$ctx.result")

/-- What a store operation's template is filled in with.  Only a `create` writes an item. -/
def storeContext (pk sk item : String) : DbAction → Template.Context
  | .create => [("pk", .text pk), ("sk", .text sk), ("item", .text item)]
  | .get | .list | .remove => [("pk", .text pk), ("sk", .text sk)]

def data (handles : Handles) (name : String) (action : DbAction) : Except FieldError Step := do
  let (template, result) := storeTemplate action
  let item := Slot.input.path
  let request ← template.fill (storeContext (item ++ ".pk") (item ++ ".sk") item action)
  let response ← Template.stashResultResponse.fill
    [("slot", .text Slot.dbResult.key), ("value", .text result)]
  return build name (.ofAction action) handles.schema handles.store request response [.input]

def resolveDetail (name : String) (scope : Scope) :
    List (String × String) → Except FieldError (List (String × Expression))
  | [] => .ok []
  | (key, value) :: rest => do
    let place := location name ("data." ++ key)
    let key ← locate place (plainText key)
    let expr ← locate place (resolve value scope)
    return (key, expr) :: (← resolveDetail name scope rest)

def emit (handles : Handles) (name : String) (envelope : Envelope) (scope : Scope) :
    Except FieldError Step := do
  let detail ← resolveDetail name scope envelope.detail.entries
  let source ← locate (location name "source") (plainText envelope.source)
  let bus ← locate (location name "bus") (plainText envelope.bus)
  let event ← locate (location name "event") (plainText envelope.event)
  let request ← Template.emitRequest.fill [
    ("detail", .rows (detail.map fun (key, e) => [key, e.text])),
    ("source", .text source), ("bus", .text bus), ("event", .text event)]
  let response ← Template.emitResponse.fill []
  return build name .emitEvent handles.schema handles.bus request response
    (slotsRead (detail.map Prod.snd) scope)

end ResolverPipeline.Step
