import ResolverPipeline.Text.Quoted

namespace ResolverPipeline

namespace Template

inductive Value
  | text (s : String)
  | number (n : Int)
  | boolean (b : Bool)
  | none
  | rows (rows : List (List String))
  deriving DecidableEq

/-- Bindings of names.  The last binding of a name counts. -/
abbrev Context := List (String × Value)

def Context.get? (c : Context) (name : String) : Option Value := c.reverse.lookup name

def bracketed (items : List String) : String := "[" ++ ", ".intercalate items ++ "]"

def Value.display : Value → String
  | .text s => s
  | .number n => toString n
  | .boolean true => "True"
  | .boolean false => "False"
  | .none => "None"
  | .rows rs => bracketed (rs.map fun r => bracketed (r.map Text.quoted))

inductive Inline
  | text (s : String)
  | gap (name : String) (line : Nat)
  deriving DecidableEq

/-- A part of a template.  The body of a loop sees each pair as `key` and `value`. -/
inductive Segment
  | inline (i : Inline)
  | pairs (name : String) (line : Nat) (body : List Inline)
  deriving DecidableEq

inductive Fault
  | undefinedValue
  | notIterable (kind : String)
  | notASequence
  | wrongLength (length : Nat)
  deriving DecidableEq

end Template

structure Template where
  name : String
  segments : List Template.Segment
  deriving DecidableEq

inductive TemplateError
  | notFound (name : String)
  | fault (fault : Template.Fault) (template : String) (line : Nat)
  deriving DecidableEq

namespace Template

def Fault.message : Fault → String
  | .undefinedValue => "undefined value"
  | .notIterable kind => "invalid operation: " ++ kind ++ " is not iterable"
  | .notASequence => "cannot unpack: not a sequence"
  | .wrongLength n =>
    "cannot unpack: sequence of wrong length (expected 2, got " ++ toString n ++ ")"

end Template

def TemplateError.message : TemplateError → String
  | .notFound name => "template not found: template " ++ Text.quoted name ++ " does not exist"
  | .fault f template line =>
    f.message ++ " (in " ++ template ++ ":" ++ toString line ++ ")"

namespace Template

def Value.pairs : Value → Except Fault (List (String × String))
  | .rows rs => rs.mapM fun
    | [key, value] => .ok (key, value)
    | row => .error (.wrongLength row.length)
  | .none => .ok []
  | .text s => if s = "" then .ok [] else .error .notASequence
  | .number _ => .error (.notIterable "number")
  | .boolean _ => .error (.notIterable "bool")

def Inline.render (context : Context) : Inline → Except (Fault × Nat) String
  | .text s => .ok s
  | .gap name line =>
    match context.get? name with
    | some v => .ok v.display
    | none => .error (.undefinedValue, line)

def renderInlines (context : Context) : List Inline → Except (Fault × Nat) String
  | [] => .ok ""
  | i :: rest => return (← i.render context) ++ (← renderInlines context rest)

def renderPairs (context : Context) (body : List Inline) :
    List (String × String) → Except (Fault × Nat) String
  | [] => .ok ""
  | (key, value) :: rest => do
    let one ← renderInlines (context ++ [("key", .text key), ("value", .text value)]) body
    return one ++ (← renderPairs context body rest)

def Segment.render (context : Context) : Segment → Except (Fault × Nat) String
  | .inline i => i.render context
  | .pairs name line body =>
    match context.get? name with
    | none => .error (.undefinedValue, line)
    | some v =>
      match v.pairs with
      | .error fault => .error (fault, line)
      | .ok ps => renderPairs context body ps

def renderSegments (context : Context) : List Segment → Except (Fault × Nat) String
  | [] => .ok ""
  | s :: rest => return (← s.render context) ++ (← renderSegments context rest)

def render (t : Template) (context : Context) : Except TemplateError String :=
  match renderSegments context t.segments with
  | .ok s => .ok s
  | .error (fault, line) => .error (.fault fault t.name line)

def find? (library : List Template) (name : String) : Option Template :=
  library.find? (·.name == name)

end Template

end ResolverPipeline
