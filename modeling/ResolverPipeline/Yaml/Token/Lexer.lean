import ResolverPipeline.Yaml.Token.Block
import ResolverPipeline.Yaml.Token.Plain
import ResolverPipeline.Yaml.Token.Quoted
import ResolverPipeline.Yaml.Token.Tag

/-!
The tokens of a YAML text, up to the place where it is malformed.  That something was the key of a map is
known only once the colon behind it is met; so a token is given out when no key can start at it any more.
-/

namespace ResolverPipeline.Yaml

/-- A token at which the key of a map may turn out to start. -/
structure Candidate where
  number : Nat
  offset : Nat
  line : Nat
  column : Nat
  required : Bool

structure Lexer where
  place : Place
  indents : List Nat := []
  candidate : Option Candidate := none
  outer : List (Option Candidate) := []
  keyAllowed : Bool := true
  queue : List Token := []
  given : Nat := 0

namespace Lexer

def inFlow (l : Lexer) : Bool := !l.outer.isEmpty

def indent (l : Lexer) : Int :=
  match l.indents with
  | [] => -1
  | i :: _ => i

def push (t : Token) (l : Lexer) : Lexer := { l with queue := l.queue ++ [t] }

def insertAt (number : Nat) (t : Token) (l : Lexer) : Lexer :=
  let (before, after) := l.queue.splitAt (number - l.given)
  { l with queue := before ++ t :: after }

def atNumber (l : Lexer) : Nat := l.given + l.queue.length

def Candidate.isStale (p : Place) (c : Candidate) : Bool :=
  c.line < p.line || c.offset + 1024 < p.offset

def dropIfStale (p : Place) : Option Candidate → Option (Option Candidate)
  | none => some none
  | some c =>
    if Candidate.isStale p c then (if c.required then none else some none) else some (some c)

def dropStale (l : Lexer) : Option Lexer := do
  let candidate ← dropIfStale l.place l.candidate
  let outer ← l.outer.mapM (dropIfStale l.place)
  return { l with candidate, outer }

def dropCandidate (l : Lexer) : Option Lexer :=
  if l.candidate.any Candidate.required then none else some { l with candidate := none }

def markCandidate (l : Lexer) : Option Lexer :=
  if l.keyAllowed then do
    let l ← l.dropCandidate
    let p := l.place
    return { l with candidate := some {
      number := l.atNumber
      offset := p.offset
      line := p.line
      column := p.column
      required := !l.inFlow && l.indent == p.column } }
  else some l

def openBlock (column number : Nat) (t : Token) (l : Lexer) : Lexer :=
  if !l.inFlow && l.indent < column then
    { l with indents := column :: l.indents }.insertAt number t
  else l

def closeAll (column : Int) : List Nat → List Nat × List Token
  | [] => ([], [])
  | i :: is =>
    if column < i then
      let (is, ts) := closeAll column is
      (is, .blockEnd :: ts)
    else (i :: is, [])

def closeBlocks (column : Int) (l : Lexer) : Lexer :=
  if l.inFlow then l
  else
    let (indents, ts) := closeAll column l.indents
    { l with indents, queue := l.queue ++ ts }

def skipBlanks : Nat → Lexer → Lexer
  | 0, l => l
  | fuel + 1, l =>
    let p := l.place
    let p := if p.column == 0 && startsWith '\uFEFF' p.rest then p.skip else p
    let p := p.skipWhile fun c => c == ' ' || (l.inFlow || !l.keyAllowed) && c == '\t'
    let p := p.skipComment
    if p.rest.head?.any isBreak then
      skipBlanks fuel { l with place := p.skipBreak, keyAllowed := l.keyAllowed || !l.inFlow }
    else { l with place := p }

def single (t : Token) (l : Lexer) : Lexer := { l with place := l.place.skip }.push t

def scanEnd (l : Lexer) : Option Lexer := do
  let p := l.place
  let p := if p.column == 0 then p else { p with column := 0, line := p.line + 1 }
  let l ← ({ l with place := p }.closeBlocks (-1)).dropCandidate
  return { l with keyAllowed := false }.push .streamEnd

def scanDirective (l : Lexer) : Option Lexer := do
  let l ← (l.closeBlocks (-1)).dropCandidate
  let (t, place) ← Directive.scan l.place
  return { l with place, keyAllowed := false }.push t

def scanMarker (t : Token) (l : Lexer) : Option Lexer := do
  let l ← (l.closeBlocks (-1)).dropCandidate
  return { l with place := l.place.skipMany 3, keyAllowed := false }.push t

def scanOpening (t : Token) (l : Lexer) : Option Lexer := do
  let l ← l.markCandidate
  return { l with candidate := none, outer := l.candidate :: l.outer, keyAllowed := true }.single t

def scanClosing (t : Token) (l : Lexer) : Option Lexer := do
  let l ← l.dropCandidate
  let l := match l.outer with
    | [] => l
    | c :: outer => { l with candidate := c, outer }
  return { l with keyAllowed := false }.single t

def scanComma (l : Lexer) : Option Lexer := do
  let l ← l.dropCandidate
  return { l with keyAllowed := true }.single .comma

def startBlock (t : Token) (l : Lexer) : Option Lexer :=
  if l.inFlow then some l
  else if l.keyAllowed then some (l.openBlock l.place.column l.atNumber t)
  else none

def scanEntry (l : Lexer) : Option Lexer := do
  let l ← (← l.startBlock .blockSequence).dropCandidate
  return { l with keyAllowed := true }.single .entry

def scanKey (l : Lexer) : Option Lexer := do
  let l ← (← l.startBlock .blockMapping).dropCandidate
  return { l with keyAllowed := !l.inFlow }.single .key

/-- A colon makes the candidate a key. -/
def scanValue (l : Lexer) : Option Lexer := do
  match l.candidate with
  | some c =>
    let l := (l.insertAt c.number .key).openBlock c.column c.number .blockMapping
    return { l with candidate := none, keyAllowed := false }.single .value
  | none =>
    let l ← l.startBlock .blockMapping
    return { l with keyAllowed := !l.inFlow }.single .value

def scanInline (scan : Place → Option (Token × Place)) (l : Lexer) : Option Lexer := do
  let l ← l.markCandidate
  let (t, place) ← scan l.place
  return { l with place, keyAllowed := false }.push t

def scanQuoted (quote : Quoted.Quote) (l : Lexer) : Option Lexer :=
  l.scanInline fun p => do
    let (s, q) ← Quoted.scan quote p
    return (.scalar .quoted s, q)

def scanBlock (literal : Bool) (l : Lexer) : Option Lexer := do
  let l ← l.dropCandidate
  let (s, place) ← Block.scan literal l.indent l.place
  return { l with place, keyAllowed := true }.push (.scalar .quoted s)

def scanPlain (l : Lexer) : Option Lexer := do
  let l ← l.markCandidate
  let ((s, lines), place) ← Plain.scan l.inFlow (l.indent + 1).toNat l.place
  return { l with place, keyAllowed := lines }.push (.scalar .plain s)

def isIndicator (c : Char) : Bool := "-?:,[]{}#&*!|>'\"%@`".toList.contains c

def startsPlain (flow : Bool) : List Char → Bool
  | [] => false
  | c :: rest =>
    !(endsWord [c] || isIndicator c) || c == '-' && !rest.head?.any isBlank ||
      !flow && (c == '?' || c == ':') && !endsWord rest

def scanNext (l : Lexer) : Option Lexer := do
  let l ← (l.skipBlanks (l.place.rest.length + 1)).dropStale
  let l := l.closeBlocks l.place.column
  let flow := l.inFlow
  match l.place.rest with
  | [] => l.scanEnd
  | c :: rest =>
    if l.place.column == 0 && c == '%' then l.scanDirective
    else if l.place.atMarker then l.scanMarker (if c == '-' then .documentStart else .documentEnd)
    else if c == '[' then l.scanOpening .openBracket
    else if c == '{' then l.scanOpening .openBrace
    else if c == ']' then l.scanClosing .closeBracket
    else if c == '}' then l.scanClosing .closeBrace
    else if c == ',' then l.scanComma
    else if c == '-' && endsWord rest then l.scanEntry
    else if c == '?' && (flow || endsWord rest) then l.scanKey
    else if c == ':' && (flow || endsWord rest) then l.scanValue
    else if c == '*' then l.scanInline fun p => do
      let (name, q) ← scanName p
      return (.alias name, q)
    else if c == '&' then l.scanInline fun p => do
      let (name, q) ← scanName p
      return (.anchor name, q)
    else if c == '!' then l.scanInline (Tag.scan flow)
    else if c == '|' && !flow then l.scanBlock true
    else if c == '>' && !flow then l.scanBlock false
    else if c == '\'' then l.scanQuoted .single
    else if c == '"' then l.scanQuoted .double
    else if startsPlain flow l.place.rest then l.scanPlain
    else none

def isUndecided (l : Lexer) : Bool :=
  (l.candidate :: l.outer).any fun c => c.any fun c => c.number == l.given

def tokens : Nat → Lexer → List Token
  | 0, _ => []
  | fuel + 1, l =>
    match l.queue with
    | [] =>
      match l.scanNext with
      | some l => tokens fuel l
      | none => []
    | t :: queue =>
      match l.dropStale with
      | none => []
      | some l =>
        if l.isUndecided then
          match l.scanNext with
          | some l => tokens fuel l
          | none => []
        else if t = .streamEnd then [t]
        else t :: tokens fuel { l with queue, given := l.given + 1 }

end Lexer

/-- The tokens of a text; the end of the text is the last one, unless the text is malformed. -/
def Token.scan (cs : List Char) : List Token :=
  Lexer.tokens (8 * cs.length + 16) { place := { rest := cs } }

end ResolverPipeline.Yaml
