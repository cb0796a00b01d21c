import ResolverPipeline.Document.Source
import ResolverPipeline.Yaml.Node
import ResolverPipeline.Yaml.Scalar

/-!
YAML documents as sources.  Aliases lead to the nodes that they name, though not so often that a small
document becomes a huge one.  Collections nest only so deep.
-/

namespace ResolverPipeline.Yaml

open Document

def wording : Wording := ⟨"unit value", Decimal.Binary64.pointed⟩

structure Cursor where
  node : Option Node
  path : Path
  depth : Nat

def maxDepth : Nat := 128

structure Context where
  /-- The nodes with anchors; of two with the same number the later one counts and stands first. -/
  anchored : List (Nat × Node)
  aliasLimit : Nat

abbrev Read := ReaderT Context (StateT Nat (Except Problem))

namespace Cursor

def within {α : Type} (c : Cursor) (r : Read α) : Read α := fun context jumps =>
  (r context jumps).mapError (Problem.locate c.path)

def follow (c : Cursor) : Read Cursor := do
  match c.node with
  | some (.alias anchor) =>
    let context ← read
    let jumps ← get
    set (jumps + 1)
    if context.aliasLimit < jumps + 1 then malformed
    else
      match context.anchored.lookup anchor with
      | some n => return { c with node := some n, path := .alias c.path }
      | none => malformed
  | _ => return c

def keyPath (path : Path) : Node → Path
  | .scalar _ _ text => .key path text
  | _ => .unnamed path

def enterItems (c : Cursor) (items : List Node) (closed : Bool) : Read (Items Cursor) :=
  match c.depth with
  | 0 => malformed
  | depth + 1 => return ⟨items.mapIdx fun i n => ⟨some n, .index c.path i, depth⟩, closed⟩

def enterEntries (c : Cursor) (entries : List (Node × Node)) (closed : Bool) :
    Read (Entries Cursor) :=
  match c.depth with
  | 0 => malformed
  | depth + 1 => return ⟨entries.map fun (k, v) =>
      (⟨some k, c.path, depth⟩, ⟨some v, keyPath c.path k, depth⟩), closed⟩

def scalarFound (p : Properties) (style : Style) (text : String) : Except Fault Found :=
  if p.tag.any Scalar.isLocalTag then .ok .tagged else Scalar.found p.tag style text

def shape (c : Cursor) : Read (Shape Cursor) := do
  let c ← c.follow
  match c.node with
  | some (.scalar p style text) => c.within do return .scalar (← lift (scalarFound p style text))
  | some (.sequence p items closed) =>
    if p.tag.any Scalar.isLocalTag then return .scalar .tagged
    else return .sequence (← c.enterItems items closed)
  | some (.map p entries closed) =>
    if p.tag.any Scalar.isLocalTag then return .scalar .tagged
    else return .map (← c.enterEntries entries closed)
  | none => return .scalar .nothing
  | some (.alias _) | some .broken => malformed

def unwanted {α : Type} (c : Cursor) (expected : String) : Read α :=
  c.within do
    match c.node with
    | some (.scalar p style text) => fail (.wrongType (← lift (Scalar.found p.tag style text)) expected)
    | some (.sequence ..) => fail (.wrongType .sequence expected)
    | some (.map ..) => fail (.wrongType .map expected)
    | none | some (.alias _) | some .broken => malformed

def text (expected : String) (c : Cursor) : Read String := do
  let c ← c.follow
  match c.node with
  | some (.scalar _ _ text) => return text
  | _ => c.unwanted expected

/-- Whether a scalar stands for an absent value.  The tag of absent values demands one. -/
def isAbsent (p : Properties) (style : Style) (text : String) : Except Fault Bool :=
  match style, p.tag with
  | .quoted, _ => .ok false
  | .plain, none => .ok (text.isEmpty || Scalar.isNull text)
  | .plain, some "tag:yaml.org,2002:null" => do
    let _ ← Scalar.found p.tag style text
    return true
  | .plain, some _ => .ok false

def optional (c : Cursor) : Read (Option Cursor) := do
  let c ← c.follow
  match c.node with
  | some (.scalar p style text) => return if ← lift (isAbsent p style text) then none else some c
  | none => return none
  | some .broken | some (.alias _) => malformed
  | _ => return some c

def isEmptyScalar : Option Node → Bool
  | none => true
  | some (.scalar _ .plain "") => true
  | _ => false

def tagName? (p : Properties) : Option String :=
  (p.tag.filter Scalar.isLocalTag).map fun t => String.ofList t.toList.tail

def unit (c : Cursor) : Read Unit :=
  match c.node with
  | some (.scalar _ style text) =>
    if style = .plain && (text.isEmpty || Scalar.isNull text) then return ()
    else c.within (fail (.wrongValue (.string text) "null"))
  | _ => c.unwanted "unit"

/-- A name is a scalar, or the tag of a node that holds nothing else. -/
def variant (known : List String) (c : Cursor) : Read String := do
  let c ← c.follow
  let tagged (tag : String) : Read String := do
    let name ← lift (knownName known tag)
    c.unit
    return name
  let untagged (found : Found) : Read String :=
    c.within (fail (.wrongType found "a YAML tag starting with '!'"))
  match c.node with
  | some (.scalar p _ text) =>
    match tagName? p with
    | some tag => tagged tag
    | none => c.within (lift (knownName known text))
  | some (.sequence p _ _) => (tagName? p).elim (untagged .sequence) tagged
  | some (.map p _ _) => (tagName? p).elim (untagged .map) tagged
  | none | some (.alias _) | some .broken => malformed

def entries (expected : String) (c : Cursor) : Read (Entries Cursor) := do
  let c ← c.follow
  match c.node with
  | some (.map _ entries closed) => c.enterEntries entries closed
  | n => if isEmptyScalar n then return ⟨[], true⟩ else c.unwanted expected

def items (expected : String) (c : Cursor) : Read (Items Cursor) := do
  let c ← c.follow
  match c.node with
  | some (.sequence _ items closed) => c.enterItems items closed
  | n => if isEmptyScalar n then return ⟨[], true⟩ else c.unwanted expected

def datum (expected : String) : Found → Except Fault Datum
  | .null | .nothing => .ok .null
  | .boolean b => .ok (.boolean b)
  | .integer n => .ok (.integer n)
  | .float x => .ok (.float x)
  | .string s => .ok (.string s)
  | .tagged => .error .taggedContent
  | found => .error (.wrongType found expected)

def bufferLevels : Nat → String → Cursor → Read Datum
  | 0, _, _ => malformed
  | levels + 1, expected, c => do
    let s ← c.shape
    c.within do
      match s with
      | .scalar found => lift (datum expected found)
      | .sequence is =>
        let ds ← readItems (bufferLevels levels "any value") is.nodes
        checkClosed is.closed
        return .sequence ds
      | .map es =>
        let ds ← readItems (fun kv => do
          let k ← bufferLevels levels "any value" kv.1
          let v ← bufferLevels levels "any value" kv.2
          return (k, v)) es.pairs
        checkClosed es.closed
        return .map ds

def buffer (expected : String) (c : Cursor) : Read Datum := bufferLevels (c.depth + 1) expected c

end Cursor

namespace Node

mutual

def wellFormed : Node → Bool
  | .scalar .. | .alias _ => true
  | .sequence _ items closed => wellFormedItems items && closed
  | .map _ entries closed => wellFormedEntries entries && closed
  | .broken => false

def wellFormedItems : List Node → Bool
  | [] => true
  | n :: rest => wellFormed n && wellFormedItems rest

def wellFormedEntries : List (Node × Node) → Bool
  | [] => true
  | (k, v) :: rest => wellFormed k && wellFormed v && wellFormedEntries rest

end

end Node

instance : Source Cursor Read where
  shape := Cursor.shape
  text := Cursor.text
  optional := Cursor.optional
  variant := Cursor.variant
  fields expected c := .named <$> c.entries expected
  entries := Cursor.entries
  items := Cursor.items
  buffer := Cursor.buffer
  skip c := if c.node.all Node.wellFormed then pure () else malformed
  within := Cursor.within

def aliasFactor : Nat := 100

def read {α : Type} (value : Cursor → Read α) (text : String) : Except Problem α := do
  let d := Parsed.ofText text
  let marks := d.root.elim 1 Node.marks
  let anchored := (d.root.elim [] Node.anchored).reverse
  let (a, _) ← value ⟨d.root, .root, maxDepth⟩ ⟨anchored, aliasFactor * marks⟩ 0
  if d.complete then return a else malformed

end ResolverPipeline.Yaml
