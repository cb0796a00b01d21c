import ResolverPipeline.Decimal.Binary64

/-!
The shortest decimal that reads back as a given number: of all decimals that lie nearer to it than to any
other number, one with the fewest digits, and of those the nearest.
-/

namespace ResolverPipeline.Decimal

inductive Tie
  | up
  | even
  deriving DecidableEq

structure Numeral where
  digits : Nat
  exponent : Int
  deriving DecidableEq

namespace Magnitude

/-- In quarters of the last bit: the ends of the interval of reals that round to the number.  Below a power
of two the numbers lie closer together, unless they have the least exponent. -/
def quarterBounds (x : Magnitude) : Nat × Nat :=
  let m := 4 * x.mantissa
  (if x.mantissa = Nat.pow 2 52 && -1074 < x.exponent then m - 1 else m - 2, m + 2)

def compareDecimal (x : Magnitude) (n : Nat) (t : Int) (q : Nat) : Ordering :=
  let e := x.exponent - 2
  compare (n * Nat.pow 10 t.toNat * Nat.pow 2 (-e).toNat) (q * Nat.pow 2 e.toNat * Nat.pow 10 (-t).toNat)

/-- Whether `n * 10 ^ t` reads back as the number.  The ends belong to an even mantissa. -/
def readsBack (x : Magnitude) (t : Int) (n : Nat) : Bool :=
  let (low, high) := x.quarterBounds
  match x.compareDecimal n t low, x.compareDecimal n t high with
  | .gt, .lt => true
  | .eq, _ | _, .eq => x.mantissa % 2 == 0
  | _, _ => false

def floorAt (x : Magnitude) (t : Int) : Nat :=
  let (a, b) := x.ratio
  a * Nat.pow 10 (-t).toNat / (b * Nat.pow 10 t.toNat)

def nearer (tie : Tie) (x : Magnitude) (t : Int) (n : Nat) : Nat :=
  -- the number against the midpoint of `n` and `n + 1`
  let (a, b) := x.ratio
  match compare (2 * a * Nat.pow 10 (-t).toNat) ((2 * n + 1) * b * Nat.pow 10 t.toNat) with
  | .lt => n
  | .gt => n + 1
  | .eq =>
    match tie with
    | .up => n + 1
    | .even => if n % 2 = 0 then n else n + 1

def decimalAt? (tie : Tie) (x : Magnitude) (t : Int) : Option Nat :=
  let n := x.floorAt t
  match x.readsBack t n, x.readsBack t (n + 1) with
  | true, true => some (x.nearer tie t n)
  | true, false => some n
  | false, true => some (n + 1)
  | false, false => none

def shortestFrom (tie : Tie) (x : Magnitude) : Nat → Int → Numeral
  | 0, t => ⟨x.floorAt t, t⟩
  | fuel + 1, t =>
    match x.decimalAt? tie t with
    | some n => ⟨n, t⟩
    | none => shortestFrom tie x fuel (t - 1)

def powerAbove (x : Magnitude) : Int :=
  ((x.mantissa.log2 : Int) + x.exponent + 1) * 30103 / 100000 + 1

/-- Seventeen digits always read back, so a few more steps than that are enough. -/
def shortest (tie : Tie) (x : Magnitude) : Numeral := x.shortestFrom tie 20 x.powerAbove

end Magnitude

end ResolverPipeline.Decimal
