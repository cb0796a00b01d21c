namespace ResolverPipeline.Yaml

def isAllowed (c : Char) : Bool :=
  let n := c.toNat
  c == '\t' || c == '\n' || c == '\r' || (0x20 ≤ n && n ≤ 0x7E) || n == 0x85 ||
    (0xA0 ≤ n && n ≤ 0xD7FF) || (0xE000 ≤ n && n ≤ 0xFFFD) || 0x10000 ≤ n

def isBreak (c : Char) : Bool :=
  c == '\n' || c == '\r' || c == '\u0085' || c == '\u2028' || c == '\u2029'

def isBlank (c : Char) : Bool := c == ' ' || c == '\t'

def isNameChar (c : Char) : Bool := c.isAlphanum || c == '_' || c == '-'

def endsWord : List Char → Bool
  | [] => true
  | c :: _ => isBlank c || isBreak c

def endsLine : List Char → Bool
  | [] => true
  | c :: _ => isBreak c

def isMarker : List Char → Bool
  | '-' :: '-' :: '-' :: rest | '.' :: '.' :: '.' :: rest => endsWord rest
  | _ => false

/-- What is left of the text, and where that starts.  `offset` counts bytes. -/
structure Place where
  rest : List Char
  offset : Nat := 0
  line : Nat := 0
  column : Nat := 0

namespace Place

def skip (p : Place) : Place :=
  match p.rest with
  | [] => p
  | c :: rest => { p with rest, offset := p.offset + c.utf8Size, column := p.column + 1 }

def skipMany : Nat → Place → Place
  | 0, p => p
  | n + 1, p => skipMany n p.skip

def skipBreak (p : Place) : Place :=
  match p.rest with
  | '\r' :: '\n' :: rest => { rest, offset := p.offset + 2, line := p.line + 1 }
  | c :: rest =>
    if isBreak c then { rest, offset := p.offset + c.utf8Size, line := p.line + 1 } else p
  | [] => p

/-- The text that a line break here stands for.  Separators are kept, all others become newlines. -/
def breakText (p : Place) : List Char :=
  match p.rest with
  | [] => []
  | c :: _ => if c == '\u2028' || c == '\u2029' then [c] else if isBreak c then ['\n'] else []

def span (p : Place) (f : Char → Bool) : List Char × Place :=
  let taken := p.rest.takeWhile f
  (taken, {
    rest := p.rest.dropWhile f
    offset := taken.foldl (fun n c => n + c.utf8Size) p.offset
    line := p.line
    column := p.column + taken.length })

def skipWhile (p : Place) (f : Char → Bool) : Place := (p.span f).2

def skipComment (p : Place) : Place :=
  match p.rest with
  | '#' :: _ => p.skipWhile fun c => !isBreak c
  | _ => p

def atMarker (p : Place) : Bool := p.column == 0 && isMarker p.rest

end Place

end ResolverPipeline.Yaml
