import ResolverPipeline.Definition
import ResolverPipeline.Document.Source

/-!
Descriptors from documents.  A descriptor is taken out of its document whole, all but its tag, before its
fields are looked at; so the tag may stand anywhere among them.
-/

namespace ResolverPipeline

open Document

namespace Document

inductive Content
  | members (entries : List (Datum × Datum))
  | elements (items : List Datum)

def Datum.text (expected : String) : Datum → Except Fault String
  | .string s => .ok s
  | d => .error (.wrongType d.found expected)

def rawText (found : Found) : Except Fault String :=
  match found.asText? with
  | some s => .ok s
  | none => .error (.wrongType found "a string, number or boolean")

def Datum.raw (d : Datum) : Except Fault String := rawText d.found

def Datum.raw? : Datum → Except Fault (Option String)
  | .null => .ok none
  | d => some <$> d.raw

def rawPairs : List (Datum × Datum) → Except Fault (List (String × String))
  | [] => .ok []
  | (k, v) :: rest => do
    let key ← k.text "a string"
    let value ← v.raw
    return (key, value) :: (← rawPairs rest)

def Datum.fieldMap : Datum → Except Fault FieldMap
  | .map entries => return .ofList (← rawPairs entries)
  | d => .error (.wrongType d.found "a map")

/-- The name that a key gives to a field.  A whole number stands for the field at that place. -/
def Datum.fieldName (names : List String) : Datum → Except Fault (Option String)
  | .string s => .ok (some s)
  | .integer n => if 0 ≤ n then .ok names[n.toNat]? else .error (.wrongType (.integer n) "field identifier")
  | d => .error (.wrongType d.found "field identifier")

def namedFields {σ : Type} (names : List String) (step : σ → String → Datum → Except Fault σ) :
    σ → List (Datum × Datum) → Except Fault σ
  | s, [] => .ok s
  | s, (k, v) :: rest => do
    match ← k.fieldName names with
    | some name => namedFields names step (← step s name v) rest
    | none => namedFields names step s rest

def onceOf {α : Type} (name : String) (seen : Option α) (read : Except Fault α) :
    Except Fault (Option α) :=
  if seen.isSome then .error (.duplicateField name) else some <$> read

def requireOf {α : Type} (name : String) : Option α → Except Fault α
  | some a => .ok a
  | none => .error (.missingField name)

def noMore (items : List Datum) (used : Nat) : Except Fault Unit :=
  if items.length ≤ used then .ok ()
  else .error (.wrongLength items.length
    (toString used ++ (if used = 1 then " element" else " elements") ++ " in sequence"))

end Document

namespace DbAction

def ofName (s : String) : Except Fault DbAction :=
  match all.find? fun a => a.name == s with
  | some a => .ok a
  | none => .error (.unknownVariant s (all.map name))

def ofKey : Datum → Except Fault DbAction
  | .string s => ofName s
  | .integer n =>
    match if 0 ≤ n then all[n.toNat]? else none with
    | some a => .ok a
    | none =>
      if 0 ≤ n then .error (.wrongValue (.integer n) "variant index 0 <= i < 4")
      else .error (.wrongType (.integer n) "variant identifier")
  | d => .error (.wrongType d.found "variant identifier")

/-- An action stands for itself, or is the only key of a map to nothing. -/
def ofDatum : Datum → Except Fault DbAction
  | .string s => ofName s
  | .map [(k, v)] => do
    let a ← ofKey k
    match v with
    | .null | .map [] => return a
    | v => .error (.wrongType v.found "unit")
  | .map _ => .error (.wrongValue .map "map with a single key")
  | d => .error (.wrongType d.found "string or map")

end DbAction

namespace Descriptor

structure GuardParts where
  pk : Option String := none
  sk : Option String := none

def guardField (s : GuardParts) (name : String) (v : Datum) : Except Fault GuardParts :=
  match name with
  | "pk" => return { s with pk := ← onceOf "pk" s.pk v.raw }
  | "sk" => return { s with sk := ← onceOf "sk" s.sk v.raw }
  | _ => .ok s

def readGuard : Content → Except Fault Descriptor
  | .members entries => do
    let s ← namedFields ["pk", "sk"] guardField {} entries
    return .guard (← requireOf "pk" s.pk) (← requireOf "sk" s.sk)
  | .elements items => do
    let expected := "struct variant StepDef::Guard with 2 elements"
    match items with
    | [] => .error (.wrongLength 0 expected)
    | [pk] => do
      let _ ← pk.raw
      .error (.wrongLength 1 expected)
    | pk :: sk :: _ =>
      let d : Descriptor := .guard (← pk.raw) (← sk.raw)
      noMore items 2
      return d

structure EmitParts where
  event : Option String := none
  data : Option FieldMap := none

def emitField (s : EmitParts) (name : String) (v : Datum) : Except Fault EmitParts :=
  match name with
  | "event" => return { s with event := ← onceOf "event" s.event (v.text "a string") }
  | "data" => return { s with data := ← onceOf "data" s.data v.fieldMap }
  | _ => .ok s

def readEmit : Content → Except Fault Descriptor
  | .members entries => do
    let s ← namedFields ["event", "data"] emitField {} entries
    return .emit (← requireOf "event" s.event) (s.data.getD .empty)
  | .elements items => do
    match items with
    | [] => .error (.wrongLength 0 "struct variant StepDef::Emit with 2 elements")
    | [event] => return .emit (← event.text "a string") .empty
    | event :: data :: _ =>
      let d : Descriptor := .emit (← event.text "a string") (← data.fieldMap)
      noMore items 2
      return d

structure DbParts where
  action : Option DbAction := none
  pk : Option (Option String) := none
  sk : Option (Option String) := none

def dbField (s : DbParts) (name : String) (v : Datum) : Except Fault DbParts :=
  match name with
  | "action" => return { s with action := ← onceOf "action" s.action (DbAction.ofDatum v) }
  | "pk" => return { s with pk := ← onceOf "pk" s.pk v.raw? }
  | "sk" => return { s with sk := ← onceOf "sk" s.sk v.raw? }
  | _ => .ok s

def readDb : Content → Except Fault Descriptor
  | .members entries => do
    let s ← namedFields ["action", "pk", "sk"] dbField {} entries
    return .db ⟨← requireOf "action" s.action, s.pk.join, s.sk.join⟩
  | .elements items => do
    match items with
    | [] => .error (.wrongLength 0 "struct DbStepDef with 3 elements")
    | [action] => return .db { action := ← DbAction.ofDatum action }
    | [action, pk] => return .db { action := ← DbAction.ofDatum action, pk := ← pk.raw? }
    | action :: pk :: sk :: _ =>
      let d : Descriptor := .db ⟨← DbAction.ofDatum action, ← pk.raw?, ← sk.raw?⟩
      noMore items 3
      return d

def checkKeys : List (Datum × Datum) → Except Fault Unit
  | [] => .ok ()
  | (k, _) :: rest => do
    let _ ← k.fieldName []
    checkKeys rest

def readAdd : Content → Except Fault Descriptor
  | .members entries => do
    checkKeys entries
    return .add (.ofList (← rawPairs entries))
  | .elements _ => .error (.wrongType .sequence "struct variant StepDef::Add")

def ofContent (tag : String) (content : Content) : Except Fault Descriptor :=
  match tag with
  | "add" => readAdd content
  | "guard" => readGuard content
  | "db" => readDb content
  | "emit" => readEmit content
  | _ => .error (.unknownVariant tag tags)

section

variable {ν : Type} {m : Type → Type} [Monad m] [MonadExceptOf Problem m] [Source ν m]

def readTag (v : ν) : m String :=
  within v do lift (knownName tags (← Source.text "variant identifier" v))

def readMembers : Option String → List (Datum × Datum) → List (ν × ν) →
    m (Option String × List (Datum × Datum))
  | tag, seen, [] => return (tag, seen.reverse)
  | tag, seen, (k, v) :: rest => do
    let key ← buffer "a type tag `type` or any other value" k
    if key matches .string "type" then
      let tag ← once "type" tag (readTag v)
      readMembers tag seen rest
    else
      let value ← buffer "any value" v
      readMembers tag ((key, value) :: seen) rest

def readEntries (es : Entries ν) : m (String × Content) := do
  let (tag, members) ← readMembers none [] es.pairs
  checkClosed es.closed
  return (← require "type" tag, .members members)

def readElements (is : Items ν) : m (String × Content) := do
  match is.nodes with
  | [] =>
    checkClosed is.closed
    fail (.missingField "type")
  | v :: rest =>
    let tag ← readTag v
    let items ← readItems (buffer "any value") rest
    checkClosed is.closed
    return (tag, .elements items)

def readTagged (v : ν) : m (String × Content) := do
  let s ← shape v
  within v do
    match s with
    | .map es => readEntries es
    | .sequence is => readElements is
    | .scalar f => fail (.wrongType f "internally tagged enum StepDef")

/-- Reads a descriptor.  Faults of its fields are not placed: once it has been taken out of the document,
its place is no longer known. -/
def read (v : ν) : m Descriptor := do
  let (tag, content) ← readTagged v
  lift (ofContent tag content)

end

end Descriptor

end ResolverPipeline
