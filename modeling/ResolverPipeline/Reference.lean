import ResolverPipeline.Stash

/-!
Reference expressions.  A raw value that starts with `$` reads the caller's input, one that starts with
`#` the latest data result, and any other is a literal.  Wherever the value mentions `@id`, a fresh
identifier takes the token's place at run time.
-/

namespace ResolverPipeline

inductive Scope
  | direct
  | pipeline (resultAvailable : Bool)
  deriving DecidableEq

inductive ReferenceKind
  | literal
  | input
  | result
  deriving DecidableEq

inductive ReferenceError
  | resultOutsidePipeline (value : String)
  | resultNotAvailable (value : String)
  | emptyPath (value : String)
  | invalidCharacter (value : String) (character : Char)
  deriving DecidableEq

def ReferenceError.message : ReferenceError → String
  | .resultOutsidePipeline v => "result reference '" ++ v ++ "' is only valid inside a pipeline"
  | .resultNotAvailable v => "result reference '" ++ v ++ "' has no preceding data step"
  | .emptyPath v => "reference '" ++ v ++ "' has no field path"
  | .invalidCharacter v c => "'" ++ v ++ "' must not contain '" ++ String.singleton c ++ "'"

/-- Characters that would start a reference or a directive, or end a quoted text, in a template. -/
def isReserved (c : Char) : Bool := c == '"' || c == '$' || c == '#'

def plainText (value : String) : Except ReferenceError String :=
  match value.toList.find? isReserved with
  | some c => .error (.invalidCharacter value c)
  | none => .ok value

def fieldPath (value path : String) : Except ReferenceError String :=
  if path = "" then .error (.emptyPath value) else plainText path

def quote (value : String) : Except ReferenceError String :=
  return "\"" ++ (← plainText value) ++ "\""

def idToken : String := "@id"

def occurs (word : List Char) : List Char → Bool
  | [] => word.isEmpty
  | c :: cs => word.isPrefixOf (c :: cs) || occurs word cs

theorem occurs_iff_isInfix {word text : List Char} : occurs word text ↔ word <:+: text := by
  induction text with
  | nil => simp [occurs]
  | cons c cs ih => simp [occurs, List.infix_cons_iff, ih]

def mentionsId (value : String) : Bool := occurs idToken.toList value.toList

structure Expression where
  kind : ReferenceKind
  generatesId : Bool
  text : String
  deriving DecidableEq

namespace Expression

def reads (e : Expression) (scope : Scope) : Option Slot :=
  match e.kind, scope with
  | .input, .pipeline _ => some .input
  | .result, _ => some .dbResult
  | _, _ => none

end Expression

namespace Scope

def inputBase : Scope → String
  | .direct => "$ctx.args"
  | .pipeline _ => Slot.input.path

def resultBase (value : String) : Scope → Except ReferenceError String
  | .direct => .error (.resultOutsidePipeline value)
  | .pipeline false => .error (.resultNotAvailable value)
  | .pipeline true => .ok Slot.dbResult.path

end Scope

def resolveBase (value : String) (scope : Scope) : Except ReferenceError (ReferenceKind × String) :=
  match value.toList with
  | '$' :: path => return (.input, scope.inputBase ++ "." ++ (← fieldPath value (String.ofList path)))
  | '#' :: path => do
    let base ← scope.resultBase value
    return (.result, base ++ "." ++ (← fieldPath value (String.ofList path)))
  | _ => return (.literal, ← quote value)

/-- Has every `@id` in the value of `text` replaced when the template runs. -/
def withFreshIds (text : String) : String :=
  "$util.str.toReplace(" ++ text ++ ", \"" ++ idToken ++ "\", $util.autoId())"

def resolve (value : String) (scope : Scope) : Except ReferenceError Expression := do
  let (kind, text) ← resolveBase value scope
  let fresh := mentionsId value
  return ⟨kind, fresh, if fresh then withFreshIds text else text⟩

end ResolverPipeline
