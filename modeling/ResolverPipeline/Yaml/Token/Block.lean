import ResolverPipeline.Yaml.Token.Basic

namespace ResolverPipeline.Yaml.Block

inductive Chomp
  | strip
  | clip
  | keep
  deriving DecidableEq

structure Header where
  chomp : Chomp := .clip
  indent : Option Nat := none

def chomp? : Char → Option Chomp
  | '+' => some .keep
  | '-' => some .strip
  | _ => none

def scanChomp (p : Place) : Option Chomp × Place :=
  match p.rest.head?.bind chomp? with
  | some c => (some c, p.skip)
  | none => (none, p)

def scanIndent (p : Place) : Option (Option Nat × Place) :=
  match p.rest with
  | '0' :: _ => none
  | c :: _ => if c.isDigit then some (some (c.toNat - '0'.toNat), p.skip) else some (none, p)
  | [] => some (none, p)

def scanHeader (p : Place) : Option (Header × Place) := do
  let (before, p) := scanChomp p
  let (indent, p) ← scanIndent p
  let (after, p) := if before.isNone && indent.isSome then scanChomp p else (none, p)
  let p := (p.skipWhile isBlank).skipComment
  if endsLine p.rest then
    return (⟨((before <|> after).getD .clip), indent⟩, p.skipBreak)
  else none

/-- Blank lines, and the indentation in front of the line behind them.  `indent` is none while it is not
known; then the widest one counts, which is given back. -/
def breaks (indent : Option Nat) : Nat → Nat → List Char → Place → Option ((List Char × Nat) × Place)
  | 0, widest, bs, p => some ((bs, widest), p)
  | fuel + 1, widest, bs, p =>
    let within (p : Place) := indent.all fun i => p.column < i
    let blanks := match indent with
      | none => p.rest.takeWhile (· == ' ')
      | some i => (p.rest.takeWhile (· == ' ')).take (i - p.column)
    let p := p.skipMany blanks.length
    let widest := max widest p.column
    match p.rest with
    | c :: _ =>
      if within p && c == '\t' then none
      else if isBreak c then breaks indent fuel widest (bs ++ p.breakText) p.skipBreak
      else some ((bs, widest), p)
    | [] => some ((bs, widest), p)

def blankNext (p : Place) : Bool := p.rest.head?.any isBlank

/-- The lines at the indentation.  `leading` is the break in front and `trailing` the blank lines behind
it. -/
def lines (literal : Bool) (indent : Nat) :
    Nat → (leading trailing : List Char) → (afterBlank : Bool) → Place →
    Option ((List Char × List Char × List Char) × Place)
  | 0, leading, trailing, _, p => some (([], leading, trailing), p)
  | fuel + 1, leading, trailing, afterBlank, p => do
    if p.column ≠ indent || p.rest.isEmpty then return (([], leading, trailing), p)
    let front :=
      if !literal && leading.head? == some '\n' && !afterBlank && !blankNext p then
        if trailing.isEmpty then [' '] else []
      else leading
    let (line, q) := p.span fun c => !isBreak c
    let ((trailing', _), r) ← breaks (some indent) q.rest.length 0 [] q.skipBreak
    let ((cs, l, t), r) ← lines literal indent fuel q.breakText trailing' (blankNext p) r
    return ((front ++ trailing ++ line ++ cs, l, t), r)

def scan (literal : Bool) (parent : Int) (p : Place) : Option (String × Place) := do
  let (header, p) ← scanHeader p.skip
  let known := header.indent.map fun i => if 0 ≤ parent then parent.toNat + i else i
  let ((trailing, widest), p) ← breaks known (p.rest.length + 1) 0 [] p
  let indent := known.getD (max (max widest (parent + 1).toNat) 1)
  let ((cs, leading, trailing), p) ← lines literal indent (p.rest.length + 1) [] trailing false p
  let ending := match header.chomp with
    | .strip => []
    | .clip => leading
    | .keep => leading ++ trailing
  return (String.ofList (cs ++ ending), p)

end ResolverPipeline.Yaml.Block
