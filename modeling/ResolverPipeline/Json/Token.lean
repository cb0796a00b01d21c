import ResolverPipeline.Json.Number
import ResolverPipeline.Text.Hex

namespace ResolverPipeline.Json

inductive Token
  | openBracket
  | closeBracket
  | openBrace
  | closeBrace
  | comma
  | colon
  | null
  | boolean (b : Bool)
  | number (value : Option Number)
  | string (value : Option String)
  | malformed
  deriving DecidableEq

namespace Token

inductive Piece
  | char (c : Char)
  | unit (n : Nat)
  deriving DecidableEq

def unescape : Char → Option Char
  | '"' => some '"'
  | '\\' => some '\\'
  | '/' => some '/'
  | 'b' => some '\x08'
  | 'f' => some '\x0c'
  | 'n' => some '\n'
  | 'r' => some '\r'
  | 't' => some '\t'
  | _ => none

def scanString : List Char → Option (List Piece × List Char)
  | [] => none
  | '"' :: rest => some ([], rest)
  | '\\' :: 'u' :: a :: b :: c :: d :: rest => do
    let n ← Text.hexNumber 4 0 [a, b, c, d]
    let (ps, rest) ← scanString rest
    return (.unit n :: ps, rest)
  | '\\' :: e :: rest => do
    let c ← unescape e
    let (ps, rest) ← scanString rest
    return (.char c :: ps, rest)
  | c :: rest => do
    if c.toNat < 0x20 then none
    else
      let (ps, rest) ← scanString rest
      return (.char c :: ps, rest)

/-- The text of the parts.  Units come alone or, beyond 16 bits, as a pair of surrogates. -/
def text? : List Piece → Option (List Char)
  | [] => some []
  | .char c :: ps => do return c :: (← text? ps)
  | .unit n :: ps =>
    if n < 0xD800 || 0xE000 ≤ n then do return .ofNat n :: (← text? ps)
    else
      match ps with
      | .unit k :: ps =>
        if n < 0xDC00 && 0xDC00 ≤ k && k < 0xE000 then do
          return .ofNat (0x10000 + (n - 0xD800) * 0x400 + (k - 0xDC00)) :: (← text? ps)
        else none
      | _ => none

def isBlank (c : Char) : Bool := c == ' ' || c == '\n' || c == '\t' || c == '\r'

def next : List Char → Option (Token × List Char)
  | [] => none
  | '[' :: rest => some (.openBracket, rest)
  | ']' :: rest => some (.closeBracket, rest)
  | '{' :: rest => some (.openBrace, rest)
  | '}' :: rest => some (.closeBrace, rest)
  | ',' :: rest => some (.comma, rest)
  | ':' :: rest => some (.colon, rest)
  | 'n' :: 'u' :: 'l' :: 'l' :: rest => some (.null, rest)
  | 't' :: 'r' :: 'u' :: 'e' :: rest => some (.boolean true, rest)
  | 'f' :: 'a' :: 'l' :: 's' :: 'e' :: rest => some (.boolean false, rest)
  | '"' :: rest => do
    let (ps, rest) ← scanString rest
    return (.string ((text? ps).map String.ofList), rest)
  | cs => do
    let (l, rest) ← Number.scan cs
    return (.number l.value?, rest)

def scanAll : Nat → List Char → List Token
  | 0, _ => []
  | fuel + 1, cs =>
    match cs.dropWhile isBlank with
    | [] => []
    | cs =>
      match next cs with
      | some (t, rest) => t :: scanAll fuel rest
      | none => [.malformed]

def scan (cs : List Char) : List Token := scanAll cs.length cs

end Token

end ResolverPipeline.Json
