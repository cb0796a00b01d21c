import ResolverPipeline.Text.Hex
import ResolverPipeline.Yaml.Token.Basic

namespace ResolverPipeline.Yaml

def endsName (cs : List Char) : Bool :=
  endsWord cs || cs.head?.any fun c =>
    c == '?' || c == ':' || c == ',' || c == ']' || c == '}' || c == '%' || c == '@' || c == '`'

def scanName (p : Place) : Option (String × Place) :=
  let (cs, q) := p.skip.span isNameChar
  if !cs.isEmpty && endsName q.rest then some (String.ofList cs, q) else none

namespace Tag

def scanHandle (p : Place) : Option ((List Char × Bool) × Place) :=
  if startsWith '!' p.rest then
    let (cs, q) := p.skip.span isNameChar
    if startsWith '!' q.rest then some (('!' :: cs ++ ['!'], true), q.skip)
    else some (('!' :: cs, false), q)
  else none

def isTagChar (verbatim : Bool) (c : Char) : Bool :=
  isNameChar c || ";/?:@&=+$.%!~*'()".toList.contains c || verbatim && (c == ',' || c == '[' || c == ']')

/-- The character that octets of UTF-8, each escaped by a percent sign, stand for at `cs`, and the number
of octets. -/
def unescape (cs : List Char) : Option (Char × Nat) := do
  let octet (cs : List Char) : Option UInt8 := do
    if startsWith '%' cs then return (.ofNat (← Text.hexNumber 2 0 cs.tail)) else none
  let first ← octet cs
  let width ← if first < 0x80 then some 1
    else if first < 0xC0 then none
    else if first < 0xE0 then some 2
    else if first < 0xF0 then some 3
    else if first < 0xF8 then some 4
    else none
  let octets ← (List.range width).mapM fun i => octet (cs.drop (3 * i))
  match (String.fromUTF8? ⟨octets.toArray⟩).map String.toList with
  | some [c] => some (c, width)
  | _ => none

def scanText (verbatim : Bool) : Nat → Place → Option (List Char × Place)
  | 0, p => some ([], p)
  | fuel + 1, p =>
    match p.rest with
    | [] => some ([], p)
    | c :: _ =>
      if !isTagChar verbatim c then some ([], p)
      else do
        let (c, width) ← if c == '%' then (fun (c, n) => (c, 3 * n)) <$> unescape p.rest else some (c, 1)
        let (cs, q) ← scanText verbatim fuel (p.skipMany width)
        return (c :: cs, q)

def scanSome (verbatim : Bool) (p : Place) : Option (String × Place) := do
  let (cs, q) ← scanText verbatim p.rest.length p
  if cs.isEmpty then none else return (String.ofList cs, q)

def scanParts (p : Place) : Option ((String × String) × Place) := do
  if startsWith '<' p.rest.tail then
    let (text, q) ← scanSome true (p.skipMany 2)
    if startsWith '>' q.rest then return (("", text), q.skip) else none
  else
    let ((handle, whole), q) ← scanHandle p
    if whole then
      let (text, q) ← scanSome false q
      return ((String.ofList handle, text), q)
    else
      let (cs, q) ← scanText false q.rest.length q
      match handle.tail ++ cs with
      | [] => return (("", "!"), q)
      | cs => return (("!", String.ofList cs), q)

def scan (flow : Bool) (p : Place) : Option (Token × Place) := do
  let ((handle, text), q) ← scanParts p
  if endsWord q.rest || flow && startsWith ',' q.rest then return (.tag handle text, q) else none

end Tag

namespace Directive

def scanNumber (p : Place) : Option (Nat × Place) :=
  let (cs, q) := p.span Char.isDigit
  if cs.isEmpty || 9 < cs.length then none
  else some (cs.foldl (fun n c => 10 * n + (c.toNat - '0'.toNat)) 0, q)

def scanVersion (p : Place) : Option (Token × Place) := do
  let (major, q) ← scanNumber (p.skipWhile isBlank)
  if startsWith '.' q.rest then
    let (minor, q) ← scanNumber q.skip
    return (.version major minor, q)
  else none

def scanHandle (p : Place) : Option (Token × Place) := do
  let ((handle, whole), q) ← Tag.scanHandle (p.skipWhile isBlank)
  if (whole || handle.length == 1) && q.rest.head?.any isBlank then
    let (text, q) ← Tag.scanSome true (q.skipWhile isBlank)
    if endsWord q.rest then return (.handle (String.ofList handle) text, q) else none
  else none

def scan (p : Place) : Option (Token × Place) := do
  let (name, q) := p.skip.span isNameChar
  if !endsWord q.rest then none
  let (token, q) ← match String.ofList name with
    | "YAML" => scanVersion q
    | "TAG" => scanHandle q
    | _ => none
  let q := (q.skipWhile isBlank).skipComment
  if endsLine q.rest then return (token, q.skipBreak) else none

end Directive

end ResolverPipeline.Yaml
