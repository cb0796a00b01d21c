import ResolverPipeline.Document.Fault

namespace ResolverPipeline.Document

inductive Datum
  | null
  | boolean (b : Bool)
  | integer (n : Int)
  | float (x : Decimal.Binary64)
  | string (s : String)
  | sequence (items : List Datum)
  | map (entries : List (Datum × Datum))

def Datum.found : Datum → Found
  | .null => .null
  | .boolean b => .boolean b
  | .integer n => .integer n
  | .float x => .float x
  | .string s => .string s
  | .sequence _ => .sequence
  | .map _ => .map

def Found.asText? : Found → Option String
  | .boolean b => some (toString b)
  | .integer n => some (toString n)
  | .float x => some x.plain
  | .string s => some s
  | _ => none

structure Items (ν : Type) where
  nodes : List ν
  closed : Bool

structure Entries (ν : Type) where
  pairs : List (ν × ν)
  closed : Bool

inductive Shape (ν : Type)
  | scalar (found : Found)
  | sequence (items : Items ν)
  | map (entries : Entries ν)

inductive Fields (ν : Type)
  | named (entries : Entries ν)
  | positional (items : Items ν)

/-- Ways to look at the nodes `ν` of a document.  Each fails where the text is malformed, or with a
fault placed at the node. -/
class Source (ν : Type) (m : Type → Type) where
  shape : ν → m (Shape ν)
  text (expected : String) : ν → m String
  optional : ν → m (Option ν)
  variant (known : List String) : ν → m String
  fields (expected : String) : ν → m (Fields ν)
  entries (expected : String) : ν → m (Entries ν)
  items (expected : String) : ν → m (Items ν)
  buffer (expected : String) : ν → m Datum
  skip : ν → m Unit
  within {α : Type} : ν → m α → m α

export Source (shape optional variant buffer skip within)

section

variable {ν : Type} {m : Type → Type} [Monad m] [MonadExceptOf Problem m] [Source ν m] {α σ : Type}

def fail (f : Fault) : m α := throw (.fault none f)

def malformed : m α := throw .malformed

def lift : Except Fault α → m α
  | .ok a => pure a
  | .error f => fail f

def checkClosed (closed : Bool) : m Unit := if closed then pure () else malformed

def knownName (known : List String) (name : String) : Except Fault String :=
  if name ∈ known then .ok name else .error (.unknownVariant name known)

def readItems (read : ν → m α) : List ν → m (List α)
  | [] => pure []
  | n :: rest => do
    let a ← read n
    return a :: (← readItems read rest)

def readList (read : ν → m α) (v : ν) : m (List α) := do
  let is ← Source.items "a sequence" v
  within v do
    let as ← readItems read is.nodes
    checkClosed is.closed
    return as

def foldEntries (key : String) (step : σ → String → ν → m σ) : σ → List (ν × ν) → m σ
  | s, [] => pure s
  | s, (k, v) :: rest => do
    let name ← Source.text key k
    foldEntries key step (← step s name v) rest

def once (name : String) (seen : Option α) (read : m α) : m (Option α) :=
  if seen.isSome then fail (.duplicateField name) else some <$> read

def require (name : String) : Option α → m α
  | some a => pure a
  | none => fail (.missingField name)

def Items.required (is : Items ν) (position : Nat) (expected : String) (read : ν → m α) :
    m (α × Items ν) :=
  match is.nodes with
  | n :: rest => return (← read n, ⟨rest, is.closed⟩)
  | [] => if is.closed then fail (.wrongLength position expected) else malformed

def Items.optional (is : Items ν) (default : α) (read : ν → m α) : m (α × Items ν) :=
  match is.nodes with
  | n :: rest => return (← read n, ⟨rest, is.closed⟩)
  | [] => if is.closed then return (default, is) else malformed

def Items.finish (is : Items ν) : m Unit := if is.nodes.isEmpty && is.closed then pure () else malformed

end

end ResolverPipeline.Document
