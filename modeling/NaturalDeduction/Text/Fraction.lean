/-!
# Fractions

A number with a point or an exponent is a decimal fraction, unless it is too large for one or no
number at all.

## Main definitions

* `Decimal`: a decimal fraction
* `Fraction`: decimal fractions, the two infinite values and the undefined one
* `Fraction.text`: how such a value is written
-/

namespace NaturalDeduction

/-- The fraction `digits * 10 ^ (-places)` with its sign. -/
structure Decimal where
  negative : Bool
  digits : Nat
  places : Int
deriving DecidableEq

namespace Decimal

/-- The significant digits, without zeros at the right end. -/
def significant (d : Decimal) : List Char :=
  ((Nat.toDigits 10 d.digits).reverse.dropWhile (· = '0')).reverse

/-- The number of digits before the point. -/
def pointPosition (d : Decimal) : Int :=
  if d.digits = 0 then 1 else (Nat.toDigits 10 d.digits).length - d.places

/-- An exponent has a sign and at least two digits. -/
def exponent (e : Int) : List Char :=
  (if e < 0 then '-' else '+') :: (Nat.toDigits 10 e.natAbs).leftpad 2 '0'

/-- Without an exponent: at least one digit stands on either side of the point. -/
def positional (ds : List Char) (point : Int) : List Char :=
  if point ≤ 0 then '0' :: '.' :: (List.replicate point.natAbs '0' ++ ds)
  else
    let whole := ds.take point.toNat
    let rest := ds.drop point.toNat
    whole ++ List.replicate (point.toNat - whole.length) '0' ++ '.' ::
      (if rest = [] then ['0'] else rest)

/-- With an exponent: one digit stands before the point. -/
def scientific (ds : List Char) (point : Int) : List Char :=
  match ds with
  | [] => []
  | d :: rest => d :: ((if rest = [] then [] else '.' :: rest) ++ 'e' :: exponent (point - 1))

/-- A fraction is written with an exponent if its point lies more than three places before its
digits, or more than sixteen places behind the first of them. -/
def text (d : Decimal) : String :=
  let ds := d.significant
  let point := d.pointPosition
  let body :=
    if ds = [] then ['0', '.', '0']
    else if -4 < point ∧ point ≤ 16 then positional ds point
    else scientific ds point
  String.ofList (if d.negative then '-' :: body else body)

end Decimal

inductive Fraction where
  | finite (d : Decimal)
  | infinite (negative : Bool)
  /-- The value of an operation that has none. -/
  | undefined
deriving DecidableEq

def Fraction.text : Fraction → String
  | finite d => d.text
  | infinite negative => if negative then "-inf" else "inf"
  | undefined => "nan"

end NaturalDeduction
