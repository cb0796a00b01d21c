import ResolverPipeline.Decimal.Binary64
import ResolverPipeline.Document.Fault
import ResolverPipeline.Text.Hex
import ResolverPipeline.Yaml.Token.Basic

namespace ResolverPipeline.Yaml.Scalar

open Document

def isNull (s : String) : Bool := s ∈ ["null", "Null", "NULL", "~"]

def boolean? (s : String) : Option Bool :=
  if s ∈ ["true", "True", "TRUE"] then some true
  else if s ∈ ["false", "False", "FALSE"] then some false
  else none

def natural? (base : Nat) (cs : List Char) : Option Nat :=
  if cs.isEmpty then none
  else cs.foldlM (fun n c => do
    let d ← Text.hexValue c
    if d < base then some (base * n + d) else none) 0

def dropPlus : List Char → List Char
  | '+' :: cs => cs
  | cs => cs

def dropSign : List Char → List Char
  | '+' :: cs | '-' :: cs => cs
  | cs => cs

def startsSigned (cs : List Char) : Bool := cs.head?.any fun c => c == '+' || c == '-'

/-- Digits that start with a zero, other than that zero alone, are no number. -/
def isZeroFilled (cs : List Char) : Bool :=
  match dropSign cs with
  | '0' :: c :: rest => (c :: rest).all Char.isDigit
  | _ => false

def magnitude? : List Char → Option Nat
  | '0' :: 'x' :: cs => natural? 16 cs
  | '0' :: 'o' :: cs => natural? 8 cs
  | '0' :: 'b' :: cs => natural? 2 cs
  | cs => if isZeroFilled cs then none else natural? 10 cs

/-- A whole number of 128 bits at most.  A minus sign leaves one bit less. -/
def integer? (cs : List Char) : Option Int :=
  match cs with
  | '-' :: cs => do
    let n ← magnitude? cs
    if n ≤ Nat.pow 2 127 then some (-n) else none
  | cs => do
    let n ← magnitude? (dropPlus cs)
    if n < Nat.pow 2 128 then some n else none

def ofInteger (n : Int) : Found :=
  if -Nat.pow 2 63 ≤ n && n < Nat.pow 2 64 then .integer n else .wideInteger n

def exponent? : List Char → Option Int
  | [] => some 0
  | e :: cs =>
    if e == 'e' || e == 'E' then do
      let n ← natural? 10 (dropSign cs)
      return if startsSigned cs && cs.head? == some '-' then -n else n
    else none

def decimal? (cs : List Char) : Option (Nat × Int) := do
  let whole := cs.takeWhile Char.isDigit
  let rest := cs.dropWhile Char.isDigit
  let (fraction, rest) := match rest with
    | '.' :: rest => (rest.takeWhile Char.isDigit, rest.dropWhile Char.isDigit)
    | rest => ([], rest)
  let digits ← natural? 10 (whole ++ fraction)
  return (digits, (← exponent? rest) - fraction.length)

def float? (cs : List Char) : Option Decimal.Binary64 :=
  let (negative, body) := match cs with
    | '-' :: rest => (true, rest)
    | cs => (false, dropPlus cs)
  match String.ofList body with
  | ".inf" | ".Inf" | ".INF" => some (.infinite negative)
  | ".nan" | ".NaN" | ".NAN" => if startsSigned cs then none else some .notANumber
  | _ => do
    let (digits, exponent) ← decimal? body
    return .finite negative (← Decimal.Magnitude.ofDecimal? digits exponent)

def plain (s : String) : Found :=
  let cs := s.toList
  if s.isEmpty || isNull s then .null
  else
    match boolean? s, integer? cs with
    | some b, _ => .boolean b
    | none, some n => ofInteger n
    | none, none =>
      match if isZeroFilled cs then none else float? cs with
      | some x => .float x
      | none => .string s

def ofStyle (style : Style) (s : String) : Found :=
  match style with
  | .plain => plain s
  | .quoted => .string s

def demand (s expected : String) : Option Found → Except Fault Found
  | some f => .ok f
  | none => .error (.wrongValue (.string s) expected)

def isLocalTag (tag : String) : Bool := startsWith '!' tag.toList

/-- What a scalar stands for.  Of the tags that are not the document's own, those of the basic types
count; with any other one the scalar is a string. -/
def found (tag : Option String) (style : Style) (s : String) : Except Fault Found :=
  match tag with
  | none => .ok (ofStyle style s)
  | some "tag:yaml.org,2002:bool" => demand s "a boolean" ((boolean? s).map .boolean)
  | some "tag:yaml.org,2002:int" => demand s "an integer" ((integer? s.toList).map ofInteger)
  | some "tag:yaml.org,2002:float" => demand s "a float" ((float? s.toList).map .float)
  | some "tag:yaml.org,2002:null" => demand s "null" (if isNull s then some .null else none)
  | some tag => .ok (if isLocalTag tag then ofStyle style s else .string s)

end ResolverPipeline.Yaml.Scalar
