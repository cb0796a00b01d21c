import ResolverPipeline.Text.Hex
import ResolverPipeline.Yaml.Token.Basic

namespace ResolverPipeline.Yaml.Quoted

inductive Quote
  | single
  | double
  deriving DecidableEq

def Quote.char : Quote → Char
  | .single => '\''
  | .double => '"'

def charOf (n : Nat) : Option Char := if n.isValidChar then some (.ofNat n) else none

inductive Escape
  | char (c : Char)
  | digits (width : Nat)

def escape? : Char → Option Escape
  | '0' => some (.char '\x00')
  | 'a' => some (.char '\x07')
  | 'b' => some (.char '\x08')
  | 't' | '\t' => some (.char '\t')
  | 'n' => some (.char '\n')
  | 'v' => some (.char '\x0b')
  | 'f' => some (.char '\x0c')
  | 'r' => some (.char '\r')
  | 'e' => some (.char '\x1b')
  | ' ' => some (.char ' ')
  | '"' => some (.char '"')
  | '/' => some (.char '/')
  | '\\' => some (.char '\\')
  | 'N' => some (.char '\u0085')
  | '_' => some (.char '\u00a0')
  | 'L' => some (.char '\u2028')
  | 'P' => some (.char '\u2029')
  | 'x' => some (.digits 2)
  | 'u' => some (.digits 4)
  | 'U' => some (.digits 8)
  | _ => none

/-- The characters up to the next blank, break or closing quote.  An escaped line break also ends them,
and is told. -/
def word (quote : Quote) : Nat → Place → Option ((List Char × Bool) × Place)
  | 0, p => some (([], false), p)
  | fuel + 1, p => do
    match p.rest with
    | [] => return (([], false), p)
    | c :: rest =>
      if endsWord p.rest then return (([], false), p)
      if quote = .single && c == '\'' && startsWith '\'' rest then
        let ((cs, broken), q) ← word quote fuel (p.skipMany 2)
        return (('\'' :: cs, broken), q)
      if c == quote.char then return (([], false), p)
      if quote = .double && c == '\\' then
        match rest with
        | [] => none
        | e :: digits =>
          if isBreak e then return (([], true), p.skip.skipBreak)
          match ← escape? e with
          | .char c =>
            let ((cs, broken), q) ← word quote fuel (p.skipMany 2)
            return ((c :: cs, broken), q)
          | .digits width =>
            let c ← charOf (← Text.hexNumber width 0 digits)
            let ((cs, broken), q) ← word quote fuel (p.skipMany (2 + width))
            return ((c :: cs, broken), q)
      let ((cs, broken), q) ← word quote fuel p.skip
      return ((c :: cs, broken), q)

def gap : Nat → List Char → Option Breaks → Place → List Char × Place
  | 0, blanks, _, p => (blanks, p)
  | fuel + 1, blanks, breaks, p =>
    match p.rest with
    | c :: _ =>
      if isBlank c then
        gap fuel (if breaks.isSome then blanks else blanks ++ [c]) breaks p.skip
      else if isBreak c then
        let breaks := match breaks with
          | none => { first := p.breakText }
          | some b => { b with more := b.more ++ p.breakText }
        gap fuel [] (some breaks) p.skipBreak
      else (breaks.elim blanks Breaks.fold, p)
    | [] => (breaks.elim blanks Breaks.fold, p)

def words (quote : Quote) : Nat → Place → Option (List Char × Place)
  | 0, _ => none
  | fuel + 1, p => do
    if p.atMarker || p.rest.isEmpty then none
    let ((w, broken), q) ← word quote p.rest.length p
    if startsWith quote.char q.rest then return (w, q.skip)
    let (g, q) := gap q.rest.length [] (if broken then some {} else none) q
    let (cs, q) ← words quote fuel q
    return (w ++ g ++ cs, q)

def scan (quote : Quote) (p : Place) : Option (String × Place) := do
  let (cs, q) ← words quote (p.rest.length + 1) p.skip
  return (String.ofList cs, q)

end ResolverPipeline.Yaml.Quoted
