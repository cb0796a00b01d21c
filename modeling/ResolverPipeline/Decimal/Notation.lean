import ResolverPipeline.Decimal.Shortest

namespace ResolverPipeline.Decimal

def zeros (n : Nat) : List Char := List.replicate n '0'

def signed (negative : Bool) (text : String) : String := if negative then "-" ++ text else text

namespace Numeral

def digitChars (d : Numeral) : List Char := Nat.toDigits 10 d.digits

def pointAt (d : Numeral) : Int := d.digitChars.length + d.exponent

def positional (d : Numeral) : List Char :=
  let ds := d.digitChars
  if 0 ≤ d.exponent then ds ++ zeros d.exponent.toNat
  else if 0 < d.pointAt then ds.take d.pointAt.toNat ++ '.' :: ds.drop d.pointAt.toNat
  else ['0', '.'] ++ zeros (-d.pointAt).toNat ++ ds

def scientific (d : Numeral) : List Char :=
  let exponent := 'e' :: (toString (d.pointAt - 1)).toList
  match d.digitChars with
  | [c] => c :: exponent
  | c :: ds => c :: '.' :: ds ++ exponent
  | [] => exponent

end Numeral

def withPoint (text : List Char) : List Char :=
  if '.' ∈ text then text else text ++ ['.', '0']

namespace Binary64

def nonFinite (negative : Bool) : String := signed negative "inf"

def plain : Binary64 → String
  | .finite s x =>
    signed s (if x.isZero then "0" else String.ofList (x.shortest .up).positional)
  | .infinite s => nonFinite s
  | .notANumber => "NaN"

def pointed : Binary64 → String
  | .finite s x =>
    signed s (if x.isZero then "0.0"
      else String.ofList (withPoint (x.shortest .up).positional))
  | .infinite s => nonFinite s
  | .notANumber => "NaN"

/-- The shortest text, positional for exponents from -5 to 15 and with an exponent beyond. -/
def compact : Binary64 → String
  | .finite s x =>
    let d := x.shortest .even
    signed s (if x.isZero then "0.0"
      else String.ofList
        (if -5 < d.pointAt && d.pointAt ≤ 16 then withPoint d.positional else d.scientific))
  | .infinite s => nonFinite s
  | .notANumber => "NaN"

end Binary64

end ResolverPipeline.Decimal
