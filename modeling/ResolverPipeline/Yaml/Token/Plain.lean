import ResolverPipeline.Yaml.Token.Basic

namespace ResolverPipeline.Yaml.Plain

inductive Gap
  | none
  | blanks (text : List Char)
  | lines (breaks : Breaks)

def Gap.text : Gap → List Char
  | .none => []
  | .blanks t => t
  | .lines b => b.fold

def Gap.isLines : Gap → Bool
  | .lines _ => true
  | _ => false

def isFlowIndicator (c : Char) : Bool :=
  c == ',' || c == '[' || c == ']' || c == '{' || c == '}'

def isFlowFollower (c : Char) : Bool := c == '?' || isFlowIndicator c

def word (flow : Bool) : Nat → Place → Option (List Char × Place)
  | 0, p => some ([], p)
  | fuel + 1, p =>
    match p.rest with
    | [] => some ([], p)
    | c :: rest =>
      if endsWord p.rest then some ([], p)
      else if flow && c == ':' && rest.head?.any isFlowFollower then none
      else if (c == ':' && endsWord rest) || (flow && isFlowIndicator c) then some ([], p)
      else do
        let (cs, q) ← word flow fuel p.skip
        return (c :: cs, q)

def gap (indent : Nat) : Nat → Gap → Place → Option (Gap × Place)
  | 0, g, p => some (g, p)
  | fuel + 1, g, p =>
    match p.rest with
    | [] => some (g, p)
    | c :: _ =>
      if isBlank c then
        match g with
        | .lines _ =>
          if p.column < indent && c == '\t' then Option.none else gap indent fuel g p.skip
        | .none => gap indent fuel (.blanks [c]) p.skip
        | .blanks t => gap indent fuel (.blanks (t ++ [c])) p.skip
      else if isBreak c then
        match g with
        | .lines b => gap indent fuel (.lines { b with more := b.more ++ p.breakText }) p.skipBreak
        | _ => gap indent fuel (.lines { first := p.breakText }) p.skipBreak
      else some (g, p)

/-- Words and gaps from `p` on; `g` is the gap in front.  Also tells whether the scalar ends behind a
line break. -/
def words (flow : Bool) (indent : Nat) : Nat → Gap → Place → Option ((List Char × Bool) × Place)
  | 0, g, p => some (([], g.isLines), p)
  | fuel + 1, g, p => do
    if p.atMarker || startsWith '#' p.rest then return (([], g.isLines), p)
    let (w, q) ← word flow p.rest.length p
    if w.isEmpty then return (([], g.isLines), p)
    let front := g.text ++ w
    if !(q.rest.head?.any fun c => isBlank c || isBreak c) then return ((front, false), q)
    let (g, q) ← gap indent q.rest.length .none q
    if !flow && q.column < indent then return ((front, g.isLines), q)
    let ((cs, lines), q) ← words flow indent fuel g q
    return ((front ++ cs, lines), q)

def scan (flow : Bool) (indent : Nat) (p : Place) : Option ((String × Bool) × Place) := do
  let ((cs, lines), q) ← words flow indent (p.rest.length + 1) .none p
  return ((String.ofList cs, lines), q)

end ResolverPipeline.Yaml.Plain
