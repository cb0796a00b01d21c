import ResolverPipeline.Decimal.Binary64

/-!
JSON numbers.  A number without a fraction and an exponent is whole as long as it fits into 64 bits; any
other is rounded to 53 significant bits: first its leading digits, then their product with the power of
ten.
-/

namespace ResolverPipeline.Json

open Decimal

inductive Number
  | whole (n : Int)
  | real (x : Binary64)
  deriving DecidableEq

namespace Number

structure Literal where
  negative : Bool
  integer : List Nat
  fraction : List Nat
  exponent : Option (Bool × List Nat)
  deriving DecidableEq

def ofDigits (ds : List Nat) : Nat := ds.foldl (fun n d => 10 * n + d) 0

def gather (n : Nat) : List Nat → Nat × List Nat
  | [] => (n, [])
  | d :: ds => if n * 10 + d < Nat.pow 2 64 then gather (n * 10 + d) ds else (n, d :: ds)

/-- `x / 10 ^ k`, by steps of at most 308 that are rounded one by one. -/
def shrink : Nat → Magnitude → Nat → Option Magnitude
  | 0, x, _ => some x
  | fuel + 1, x, k =>
    if k ≤ 308 then do x.div? (← Magnitude.ofNat? (Nat.pow 10 k))
    else if x.isZero then some x
    else do shrink fuel (← x.div? (← Magnitude.ofNat? (Nat.pow 10 308))) (k - 308)

def scale (n : Nat) (exponent : Int) : Option Magnitude := do
  let x ← Magnitude.ofNat? n
  if 0 ≤ exponent then
    if x.isZero then some x
    else if 308 < exponent then none
    else x.mul? (← Magnitude.ofNat? (Nat.pow 10 exponent.toNat))
  else shrink (-exponent).toNat x (-exponent).toNat

def exponentLimit : Nat := 2147483647

namespace Literal

def value? (l : Literal) : Option Number :=
  let (n, rest) := gather 0 l.integer
  match l.fraction, l.exponent, rest with
  | [], none, [] =>
    if !l.negative then some (.whole n)
    else if 0 < n && n ≤ Nat.pow 2 63 then some (.whole (-n))
    else do return .real (.finite true (← scale n 0))
  | fraction, exponent, rest =>
    let (n, left) := gather n fraction
    let shift : Int := rest.length - (fraction.length - left.length : Nat)
    match exponent with
    | none => do return .real (.finite l.negative (← scale n shift))
    | some (negative, ds) =>
      let e := ofDigits ds
      if exponentLimit < e then
        if n ≠ 0 && !negative then none else some (.real (.finite l.negative .zero))
      else do
        let e : Int := if negative then shift - e else shift + e
        return .real (.finite l.negative (← scale n e))

end Literal

def isDigit (c : Char) : Bool := '0' ≤ c && c ≤ '9'

def digitValue (c : Char) : Nat := c.toNat - '0'.toNat

def scanDigits (cs : List Char) : List Nat × List Char :=
  ((cs.takeWhile isDigit).map digitValue, cs.dropWhile isDigit)

def scanInteger (cs : List Char) : Option (List Nat × List Char) :=
  match scanDigits cs with
  | ([], _) | (0 :: _ :: _, _) => none
  | r => some r

def scanFraction : List Char → Option (List Nat × List Char)
  | '.' :: cs =>
    match scanDigits cs with
    | ([], _) => none
    | r => some r
  | cs => some ([], cs)

def scanExponentDigits (negative : Bool) (cs : List Char) :
    Option (Option (Bool × List Nat) × List Char) :=
  match scanDigits cs with
  | ([], _) => none
  | (ds, rest) => some (some (negative, ds), rest)

def scanExponent : List Char → Option (Option (Bool × List Nat) × List Char)
  | 'e' :: '-' :: cs | 'E' :: '-' :: cs => scanExponentDigits true cs
  | 'e' :: '+' :: cs | 'E' :: '+' :: cs => scanExponentDigits false cs
  | 'e' :: cs | 'E' :: cs => scanExponentDigits false cs
  | cs => some (none, cs)

def scan (cs : List Char) : Option (Literal × List Char) := do
  let (negative, cs) := match cs with
    | '-' :: rest => (true, rest)
    | cs => (false, cs)
  let (integer, cs) ← scanInteger cs
  let (fraction, cs) ← scanFraction cs
  let (exponent, cs) ← scanExponent cs
  return (⟨negative, integer, fraction, exponent⟩, cs)

end Number

end ResolverPipeline.Json
