import Breakpoint.Decimal.Shortest

/-! The text of a binary number: its shortest decimal, written positionally when its magnitude is
moderate and with an exponent otherwise. -/

namespace Breakpoint.Decimal

/-- Which decimal exponents of the leading digit are written positionally. -/
structure Layout where
  positionalFrom : Int
  positionalBelow : Int

namespace Layout

/-- Digits with a decimal point, and at least one digit on either side of it. -/
def positional (number : Scaled) : List Char :=
  let digits := Nat.toDigits 10 number.digits
  let whole := number.exponent + digits.length
  if whole ≤ 0 then
    '0' :: '.' :: List.replicate (-whole).toNat '0' ++ digits
  else if digits.length ≤ whole.toNat then
    digits ++ List.replicate (whole.toNat - digits.length) '0' ++ ['.', '0']
  else
    digits.take whole.toNat ++ '.' :: digits.drop whole.toNat

/-- One digit, the others after a decimal point if there are any, and the exponent. -/
def scientific (number : Scaled) : List Char :=
  let digits := Nat.toDigits 10 number.digits
  let exponent := number.exponent + digits.length - 1
  let rest := digits.drop 1
  digits.take 1 ++ (if rest.isEmpty then [] else '.' :: rest) ++ 'e' :: (toString exponent).toList

/-- The text of a positive number. -/
def magnitude (layout : Layout) (number : Scaled) : List Char :=
  let exponent := number.exponent + digitCount number.digits - 1
  if layout.positionalFrom ≤ exponent && exponent < layout.positionalBelow then positional number
  else scientific number

/-- The text of the number that a bit pattern stands for. A zero keeps its sign, a not-a-number has
none. -/
def render (layout : Layout) (f : Format) (bits : Nat) : String :=
  match f.decode bits with
  | .nan => "NaN"
  | .infinite negative => if negative then "-inf" else "inf"
  | .finite negative mantissa exponent =>
    let sign := if negative then ['-'] else []
    if mantissa = 0 then String.ofList (sign ++ ['0', '.', '0'])
    else String.ofList (sign ++ layout.magnitude (f.bracket mantissa exponent).shortest)

end Layout

end Breakpoint.Decimal
