import ResolverPipeline.Step.Builder

/-!
The templates registered on a schema field.  A pipeline's resolver only seeds the stash and picks the
final result; a lone store operation works on the caller's arguments and never touches the stash.
-/

namespace ResolverPipeline

structure ResolverTemplates where
  request : String
  response : String
  deriving DecidableEq

namespace ResolverTemplates

/-- The extra fields: each key as it is, each value resolved.  They are put in place before any step
runs, so none may read a result. -/
def resolveExtra : List (String × String) → Except FieldError (List (String × Expression))
  | [] => .ok []
  | (key, value) :: rest => do
    let place := "extra field '" ++ key ++ "'"
    let key ← locate place (plainText key)
    let expr ← locate place (resolve value (.pipeline false))
    return (key, expr) :: (← resolveExtra rest)

def seed : Operation → String
  | .mutation => "$ctx.args.input"
  | .query => "$ctx.args"

/-- What a pipeline answers that stored no result: a mutation the caller's arguments, a query an
error. -/
def fallback : Operation → String
  | .mutation => "$util.toJson($ctx.args)"
  | .query => "$util.error(\"Pipeline produced no result\", \"NoResult\")"

def pipeline (p : Pipeline) : Except FieldError ResolverTemplates := do
  let fields ← resolveExtra p.extraFields.entries
  let request ← Template.pipelineRequest.fill [
    ("seed", .text (seed p.operation)),
    ("fields", .rows (fields.map fun (key, e) => [key, e.text]))]
  let response ← Template.pipelineResponse.fill [
    ("result", .text Slot.dbResult.path), ("fallback", .text (fallback p.operation))]
  return ⟨request, response⟩

def directKey (access : DbAccess) (key : String) (value : Option String) :
    Except FieldError String :=
  match value with
  | none => .error (.missingKey access.action key)
  | some value => do
    let expr ← locate (access.action.name ++ " " ++ key) (resolve value .direct)
    return expr.text

def directKeys (access : DbAccess) : Except FieldError (String × String) :=
  match access.action with
  | .list => return (← directKey access "pk" access.pk, ← directKey access "sk" access.sk)
  | .create => .ok ("$ctx.args.input.pk", "$ctx.args.input.sk")
  | .get | .remove => .ok ("$ctx.args.pk", "$ctx.args.sk")

def unit (access : DbAccess) : Except FieldError ResolverTemplates := do
  let (pk, sk) ← directKeys access
  let (template, result) := Step.storeTemplate access.action
  let request ← template.fill (Step.storeContext pk sk "$ctx.args.input" access.action)
  let response ← Template.resultResponse.fill [("value", .text result)]
  return ⟨request, response⟩

end ResolverTemplates

end ResolverPipeline
