import ResolverPipeline.Document.Source
import ResolverPipeline.Json.Node

/-!
JSON documents as sources.  Records may be written as arrays of their fields, and a name may be written
as the only key of an object that holds nothing else.  Values that are passed over may nest to any depth,
all others only so far.
-/

namespace ResolverPipeline.Json

open Document

def wording : Wording := ⟨"null", Decimal.Binary64.compact⟩

/-- A node, with how many more levels may be entered below it. -/
structure Cursor where
  node : Node
  depth : Nat

def maxDepth : Nat := 127

def Number.found : Number → Found
  | .whole n => .integer n
  | .real x => .float x

def Number.datum : Number → Datum
  | .whole n => .integer n
  | .real x => .float x

abbrev Read := Except Problem

namespace Cursor

def enterItems (depth : Nat) (items : List Node) (closed : Bool) : Read (Items Cursor) :=
  match depth with
  | 0 => malformed
  | d + 1 => .ok ⟨items.map (⟨·, d⟩), closed⟩

def enterMembers (depth : Nat) (members : List (Option String × Node)) (closed : Bool) :
    Read (Entries Cursor) :=
  match depth with
  | 0 => malformed
  | d + 1 => .ok ⟨members.map fun (k, v) => (⟨.string k, d⟩, ⟨v, d⟩), closed⟩

def shape (c : Cursor) : Read (Shape Cursor) :=
  match c.node with
  | .null => .ok (.scalar .null)
  | .boolean b => .ok (.scalar (.boolean b))
  | .number (some n) => .ok (.scalar n.found)
  | .string (some s) => .ok (.scalar (.string s))
  | .array items closed => .sequence <$> enterItems c.depth items closed
  | .object members closed => .map <$> enterMembers c.depth members closed
  | .number none | .string none | .broken => malformed

def unwanted {α : Type} (c : Cursor) (expected : String) : Read α :=
  match c.node with
  | .null => fail (.wrongType .null expected)
  | .boolean b => fail (.wrongType (.boolean b) expected)
  | .number (some n) => fail (.wrongType n.found expected)
  | .string (some s) => fail (.wrongType (.string s) expected)
  | .array _ _ => fail (.wrongType .sequence expected)
  | .object _ _ => fail (.wrongType .map expected)
  | .number none | .string none | .broken => malformed

def text (expected : String) (c : Cursor) : Read String :=
  match c.node with
  | .string (some s) => .ok s
  | _ => c.unwanted expected

def optional (c : Cursor) : Read (Option Cursor) :=
  match c.node with
  | .null => .ok none
  | _ => .ok (some c)

def unit (n : Node) : Read Unit :=
  match n with
  | .null => .ok ()
  | n => unwanted ⟨n, 0⟩ "unit"

def variant (known : List String) (c : Cursor) : Read String :=
  match c.node with
  | .string (some s) => lift (knownName known s)
  | .object members closed => do
    let es ← enterMembers c.depth members closed
    match es.pairs with
    | (k, v) :: rest =>
      let name ← lift (knownName known (← k.text "variant identifier"))
      unit v.node
      if rest.isEmpty && es.closed then return name else malformed
    | [] => malformed
  | _ => malformed

def fields (expected : String) (c : Cursor) : Read (Fields Cursor) :=
  match c.node with
  | .array items closed => .positional <$> enterItems c.depth items closed
  | .object members closed => .named <$> enterMembers c.depth members closed
  | _ => c.unwanted expected

def entries (expected : String) (c : Cursor) : Read (Entries Cursor) :=
  match c.node with
  | .object members closed => enterMembers c.depth members closed
  | _ => c.unwanted expected

def items (expected : String) (c : Cursor) : Read (Items Cursor) :=
  match c.node with
  | .array items closed => enterItems c.depth items closed
  | _ => c.unwanted expected

end Cursor

namespace Node

mutual

def buffer : Nat → Node → Read Datum
  | _, .null => .ok .null
  | _, .boolean b => .ok (.boolean b)
  | _, .number (some n) => .ok n.datum
  | _, .string (some s) => .ok (.string s)
  | depth + 1, .array items closed => do
    let ds ← bufferItems depth items
    checkClosed closed
    return .sequence ds
  | depth + 1, .object members closed => do
    let ds ← bufferMembers depth members
    checkClosed closed
    return .map ds
  | _, .number none | _, .string none | _, .broken | 0, .array _ _ | 0, .object _ _ => malformed

def bufferItems (depth : Nat) : List Node → Read (List Datum)
  | [] => .ok []
  | n :: rest => do
    let d ← buffer depth n
    return d :: (← bufferItems depth rest)

def bufferMembers (depth : Nat) : List (Option String × Node) → Read (List (Datum × Datum))
  | [] => .ok []
  | (k, n) :: rest => do
    match k with
    | none => malformed
    | some k =>
      let d ← buffer depth n
      return (.string k, d) :: (← bufferMembers depth rest)

def wellFormed : Node → Bool
  | .broken => false
  | .array items closed => wellFormedItems items && closed
  | .object members closed => wellFormedMembers members && closed
  | _ => true

def wellFormedItems : List Node → Bool
  | [] => true
  | n :: rest => wellFormed n && wellFormedItems rest

def wellFormedMembers : List (Option String × Node) → Bool
  | [] => true
  | (_, n) :: rest => wellFormed n && wellFormedMembers rest

end

end Node

instance : Source Cursor Read where
  shape := Cursor.shape
  text := Cursor.text
  optional := Cursor.optional
  variant := Cursor.variant
  fields := Cursor.fields
  entries := Cursor.entries
  items := Cursor.items
  buffer _ c := c.node.buffer c.depth
  skip c := if c.node.wellFormed then pure () else malformed
  within _ r := r

def read {α : Type} (value : Cursor → Read α) (text : String) : Read α := do
  let d := Parsed.ofText text
  let a ← value ⟨d.root, maxDepth⟩
  if d.complete then return a else malformed

end ResolverPipeline.Json
