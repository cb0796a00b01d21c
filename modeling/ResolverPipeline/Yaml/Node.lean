import ResolverPipeline.Yaml.Token.Lexer

namespace ResolverPipeline.Yaml

structure Properties where
  anchor : Option Nat := none
  tag : Option String := none

inductive Node
  | scalar (properties : Properties) (style : Style) (text : String)
  | sequence (properties : Properties) (items : List Node) (closed : Bool)
  | map (properties : Properties) (entries : List (Node × Node)) (closed : Bool)
  | alias (anchor : Nat)
  | broken

namespace Node

def empty : Node := .scalar {} .plain ""

structure Rest where
  tokens : List Token
  anchors : List (String × Nat) := []

abbrev Parse := StateM Rest

def peek : Parse (Option Token) := return (← get).tokens.head?

def drop : Parse Unit := modify fun r => { r with tokens := r.tokens.tail }

def stop : Parse Unit := modify fun r => { r with tokens := [] }

def stopBroken : Parse Node := do
  stop
  return .broken

def orEmpty (others : List Token) (node : Parse Node) : Parse Node := do
  match ← peek with
  | none => return .broken
  | some t => if t ∈ others then return empty else node

def expand (handles : List (String × String)) (handle text : String) : Option String :=
  if handle.isEmpty then some text else (handles.lookup handle).map (· ++ text)

def takeNames : List Token → (Option String × Option (String × String)) × List Token
  | .anchor a :: .tag h t :: ts | .tag h t :: .anchor a :: ts => ((some a, some (h, t)), ts)
  | .anchor a :: ts => ((some a, none), ts)
  | .tag h t :: ts => ((none, some (h, t)), ts)
  | ts => ((none, none), ts)

/-- The number of an anchor, and all names with it.  A name may be given again. -/
def number (name : String) (anchors : List (String × Nat)) : Nat × List (String × Nat) :=
  let n := anchors.length
  (n, (name, n) :: anchors.filter (·.1 ≠ name))

def nameAnchor (name : Option String) : Parse (Option Nat) := do
  match name with
  | none => return none
  | some name =>
    let r ← get
    let (n, anchors) := number name r.anchors
    set { r with anchors }
    return some n

structure Context where
  block : Bool
  indentless : Bool

mutual

def parse (handles : List (String × String)) (c : Context) : Nat → Parse Node
  | 0 => stopBroken
  | fuel + 1 => do
    let r ← get
    let ((anchor, tag), tokens) := takeNames r.tokens
    match tag.map fun (h, t) => expand handles h t with
    | some none => stopBroken
    | full =>
      let tag := full.join
      set { r with tokens }
      let properties : Parse Properties := return ⟨← nameAnchor anchor, tag⟩
      match tokens with
      | .scalar style text :: _ =>
        drop
        let p ← properties
        return .scalar { p with tag := tag.filter (· ≠ "!") } style text
      | .openBracket :: _ =>
        drop
        let p ← properties
        let (items, closed) ← parseFlowItems handles true fuel
        return .sequence p items closed
      | .openBrace :: _ =>
        drop
        let p ← properties
        let (entries, closed) ← parseFlowEntries handles true fuel
        return .map p entries closed
      | t :: _ =>
        if t = .entry && c.indentless then
          let p ← properties
          let (items, closed) ← parseIndentless handles fuel
          return .sequence p items closed
        else if t = .blockSequence && c.block then
          drop
          let p ← properties
          let (items, closed) ← parseItems handles fuel
          return .sequence p items closed
        else if t = .blockMapping && c.block then
          drop
          let p ← properties
          let (entries, closed) ← parseEntries handles fuel
          return .map p entries closed
        else if anchor.isSome || tag.isSome then
          return .scalar (← properties) .plain ""
        else
          match t with
          | .alias name =>
            match r.anchors.lookup name with
            | some n =>
              drop
              return .alias n
            | none => stopBroken
          | _ => stopBroken
      | [] => stopBroken

def parseItems (handles : List (String × String)) : Nat → Parse (List Node × Bool)
  | 0 => return ([], false)
  | fuel + 1 => do
    match ← peek with
    | some .entry =>
      drop
      let x ← orEmpty [.entry, .blockEnd] (parse handles ⟨true, false⟩ fuel)
      let (xs, closed) ← parseItems handles fuel
      return (x :: xs, closed)
    | some .blockEnd =>
      drop
      return ([], true)
    | _ =>
      stop
      return ([], false)

def parseIndentless (handles : List (String × String)) : Nat → Parse (List Node × Bool)
  | 0 => return ([], false)
  | fuel + 1 => do
    match ← peek with
    | some .entry =>
      drop
      let x ← orEmpty [.entry, .key, .value, .blockEnd] (parse handles ⟨true, false⟩ fuel)
      let (xs, closed) ← parseIndentless handles fuel
      return (x :: xs, closed)
    | some _ => return ([], true)
    | none => return ([], false)

def parseEntries (handles : List (String × String)) : Nat → Parse (List (Node × Node) × Bool)
  | 0 => return ([], false)
  | fuel + 1 => do
    match ← peek with
    | some .key =>
      drop
      let k ← orEmpty [.key, .value, .blockEnd] (parse handles ⟨true, true⟩ fuel)
      let v ← parseValue handles [.key, .value, .blockEnd] ⟨true, true⟩ fuel
      let (rest, closed) ← parseEntries handles fuel
      return ((k, v) :: rest, closed)
    | some .blockEnd =>
      drop
      return ([], true)
    | _ =>
      stop
      return ([], false)

def parseValue (handles : List (String × String)) (others : List Token) (c : Context) :
    Nat → Parse Node
  | 0 => stopBroken
  | fuel + 1 => do
    match ← peek with
    | some .value =>
      drop
      orEmpty others (parse handles c fuel)
    | some _ => return empty
    | none => return .broken

def parseFlowItems (handles : List (String × String)) (first : Bool) :
    Nat → Parse (List Node × Bool)
  | 0 => return ([], false)
  | fuel + 1 => do
    if (← peek) = some .closeBracket then
      drop
      return ([], true)
    if !first then
      if (← peek) = some .comma then drop else stop
    match ← peek with
    | none => return ([], false)
    | some .closeBracket =>
      drop
      return ([], true)
    | some .key =>
      drop
      let k ← parsePairKey handles fuel
      let v ← parseValue handles [.comma, .closeBracket] ⟨false, false⟩ fuel
      let x := Node.map {} [(k, v)] (← peek).isSome
      let (xs, closed) ← parseFlowItems handles false fuel
      return (x :: xs, closed)
    | some _ =>
      let x ← parse handles ⟨false, false⟩ fuel
      let (xs, closed) ← parseFlowItems handles false fuel
      return (x :: xs, closed)

/-- The key of a single pair among items.  Where it is left out, the token behind it is lost. -/
def parsePairKey (handles : List (String × String)) : Nat → Parse Node
  | 0 => stopBroken
  | fuel + 1 => do
    match ← peek with
    | none => return .broken
    | some t =>
      if t ∈ [.value, .comma, .closeBracket] then
        drop
        return empty
      else parse handles ⟨false, false⟩ fuel

def parseFlowEntries (handles : List (String × String)) (first : Bool) :
    Nat → Parse (List (Node × Node) × Bool)
  | 0 => return ([], false)
  | fuel + 1 => do
    if (← peek) = some .closeBrace then
      drop
      return ([], true)
    if !first then
      if (← peek) = some .comma then drop else stop
    match ← peek with
    | none => return ([], false)
    | some .closeBrace =>
      drop
      return ([], true)
    | some .key =>
      drop
      let k ← orEmpty [.value, .comma, .closeBrace] (parse handles ⟨false, false⟩ fuel)
      let v ← parseValue handles [.comma, .closeBrace] ⟨false, false⟩ fuel
      let (rest, closed) ← parseFlowEntries handles false fuel
      return ((k, v) :: rest, closed)
    | some _ =>
      let k ← parse handles ⟨false, false⟩ fuel
      let v := if (← peek).isSome then empty else .broken
      let (rest, closed) ← parseFlowEntries handles false fuel
      return ((k, v) :: rest, closed)

end

mutual

def anchored : Node → List (Nat × Node)
  | .scalar p style text => (p.anchor.map fun n => (n, .scalar p style text)).toList
  | .sequence p items closed =>
    (p.anchor.map fun n => (n, .sequence p items closed)).toList ++ anchoredItems items
  | .map p entries closed =>
    (p.anchor.map fun n => (n, .map p entries closed)).toList ++ anchoredEntries entries
  | .alias _ | .broken => []

def anchoredItems : List Node → List (Nat × Node)
  | [] => []
  | n :: rest => anchored n ++ anchoredItems rest

def anchoredEntries : List (Node × Node) → List (Nat × Node)
  | [] => []
  | (k, v) :: rest => anchored k ++ anchored v ++ anchoredEntries rest

end

mutual

/-- How many marks the text of a node has: one for each scalar and alias, and for each start and end of a
collection. -/
def marks : Node → Nat
  | .scalar .. | .alias _ => 1
  | .sequence _ items closed => marksOfItems items + (if closed then 2 else 1)
  | .map _ entries closed => marksOfEntries entries + (if closed then 2 else 1)
  | .broken => 0

def marksOfItems : List Node → Nat
  | [] => 0
  | n :: rest => marks n + marksOfItems rest

def marksOfEntries : List (Node × Node) → Nat
  | [] => 0
  | (k, v) :: rest => marks k + marks v + marksOfEntries rest

end

end Node

structure Parsed where
  root : Option Node
  complete : Bool

namespace Parsed

def defaultHandles : List (String × String) := [("!", "!"), ("!!", "tag:yaml.org,2002:")]

def takeDirectives : (versioned : Bool) → List (String × String) → List Token →
    Option (List (String × String) × List Token)
  | versioned, handles, .version major minor :: ts =>
    if versioned || major ≠ 1 || !(minor == 1 || minor == 2) then none
    else takeDirectives true handles ts
  | versioned, handles, .handle name text :: ts =>
    if (handles.lookup name).isSome then none
    else takeDirectives versioned (handles ++ [(name, text)]) ts
  | _, handles, ts => some (handles, ts)

def endsContent : Token → Bool
  | .version .. | .handle .. | .documentStart | .documentEnd | .streamEnd => true
  | _ => false

def close (root : Node) (ts : List Token) : Parsed :=
  ⟨some root, ts.dropWhile (· == .documentEnd) == [.streamEnd]⟩

def parseRoot (handles : List (String × String)) (ts : List Token) : Parsed :=
  let (root, r) := (Node.parse (handles ++ defaultHandles) ⟨true, false⟩ (2 * ts.length + 2)).run ⟨ts, []⟩
  close root r.tokens

def ofTokens (ts : List Token) : Parsed :=
  match ts with
  | .streamEnd :: _ => ⟨none, true⟩
  | .version .. :: _ | .handle .. :: _ | .documentStart :: _ =>
    match takeDirectives false [] ts with
    | some (handles, .documentStart :: ts) =>
      if ts.head?.any endsContent then close .empty ts else parseRoot handles ts
    | _ => ⟨some .broken, false⟩
  | ts => parseRoot [] ts

def ofText (text : String) : Parsed :=
  let cs := text.toList
  if cs.all isAllowed then ofTokens (Token.scan cs) else ⟨some .broken, false⟩

end Parsed

end ResolverPipeline.Yaml
