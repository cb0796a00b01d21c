namespace ResolverPipeline.Decimal

structure Magnitude where
  mantissa : Nat
  exponent : Int
  deriving DecidableEq

inductive Binary64
  | finite (negative : Bool) (magnitude : Magnitude)
  | infinite (negative : Bool)
  | notANumber
  deriving DecidableEq

/-- The quotient to the nearest whole number; a half goes to the even neighbour. -/
def roundDiv (num den : Nat) : Nat :=
  let q := num / den
  let r := num % den
  if den < 2 * r || (2 * r == den && q % 2 == 1) then q + 1 else q

namespace Magnitude

def zero : Magnitude := ⟨0, 0⟩

def isZero (x : Magnitude) : Bool := x.mantissa == 0

def ratio (x : Magnitude) : Nat × Nat :=
  if 0 ≤ x.exponent then (x.mantissa * Nat.pow 2 x.exponent.toNat, 1)
  else (x.mantissa, Nat.pow 2 (-x.exponent).toNat)

def mantissaAt (num den : Nat) (exponent : Int) : Nat :=
  if 0 ≤ exponent then roundDiv num (den * Nat.pow 2 exponent.toNat)
  else roundDiv (num * Nat.pow 2 (-exponent).toNat) den

/-- The least exponent with which `num / den` has at most 53 bits before the point. -/
def exponentFor (num den : Nat) : Int :=
  let low := (num.log2 : Int) - den.log2 - 53
  let fits := if 0 ≤ low then num < Nat.pow 2 53 * (den * Nat.pow 2 low.toNat)
    else num * Nat.pow 2 (-low).toNat < Nat.pow 2 53 * den
  max (if fits then low else low + 1) (-1074)

def ofRatio? (num den : Nat) : Option Magnitude :=
  if num = 0 then some zero
  else
    let e := exponentFor num den
    let m := mantissaAt num den e
    let x : Magnitude := if m = Nat.pow 2 53 then ⟨Nat.pow 2 52, e + 1⟩ else ⟨m, e⟩
    if x.mantissa = 0 then some zero else if x.exponent ≤ 971 then some x else none

def ofNat? (n : Nat) : Option Magnitude := ofRatio? n 1

def mul? (x y : Magnitude) : Option Magnitude :=
  let (a, b) := x.ratio
  let (c, d) := y.ratio
  ofRatio? (a * c) (b * d)

def div? (x y : Magnitude) : Option Magnitude :=
  let (a, b) := x.ratio
  let (c, d) := y.ratio
  ofRatio? (a * d) (b * c)

/-- The magnitude nearest to `digits * 10 ^ exponent`.  Exponents that no digit string of the given
length can bring into range are not multiplied out. -/
def ofDecimal? (digits : Nat) (exponent : Int) : Option Magnitude :=
  if digits = 0 then some zero
  else
    let top := exponent + (Nat.toDigits 10 digits).length
    if 400 < top then none
    else if top < -400 then some zero
    else if 0 ≤ exponent then ofRatio? (digits * Nat.pow 10 exponent.toNat) 1
    else ofRatio? digits (Nat.pow 10 (-exponent).toNat)

end Magnitude

end ResolverPipeline.Decimal
