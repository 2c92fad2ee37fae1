/-! Binary floating-point numbers, given by their bit patterns in the interchange formats. A pattern
is read as a sign with an exact mantissa and exponent, an infinity, or one of the many
not-a-numbers. -/

namespace Breakpoint.Decimal

/-- The widths of the exponent and fraction fields of an interchange format. -/
structure Format where
  exponentWidth : Nat
  fractionWidth : Nat
deriving DecidableEq, Repr

/-- The 32-bit format. -/
def Format.single : Format := ⟨8, 23⟩

/-- The 64-bit format. -/
def Format.double : Format := ⟨11, 52⟩

/-- What a bit pattern stands for; `finite negative m q` is `m · 2 ^ q` with its sign. -/
inductive Number where
  | nan
  | infinite (negative : Bool)
  | finite (negative : Bool) (mantissa : Nat) (exponent : Int)
deriving DecidableEq, Repr

namespace Format

/-- The exponent of the smallest numbers, those without a leading one. -/
def leastExponent (f : Format) : Int :=
  2 - Nat.pow 2 (f.exponentWidth - 1) - f.fractionWidth

/-- The number that a bit pattern stands for. -/
def decode (f : Format) (bits : Nat) : Number :=
  let fraction := bits % Nat.pow 2 f.fractionWidth
  let field := bits / Nat.pow 2 f.fractionWidth % Nat.pow 2 f.exponentWidth
  let negative := bits / Nat.pow 2 (f.fractionWidth + f.exponentWidth) % 2 == 1
  if field + 1 = Nat.pow 2 f.exponentWidth then
    if fraction = 0 then .infinite negative else .nan
  else if field = 0 then
    .finite negative fraction f.leastExponent
  else
    .finite negative (Nat.pow 2 f.fractionWidth + fraction) (f.leastExponent + (field - 1 : Nat))

/-- Whether a bit pattern is a not-a-number. -/
def isNaN (f : Format) (bits : Nat) : Bool := f.decode bits == .nan

/-- Whether a bit pattern is a zero of either sign. -/
def isZero (f : Format) (bits : Nat) : Bool :=
  match f.decode bits with
  | .finite _ mantissa _ => mantissa == 0
  | _ => false

/-- Numeric equality: zeros of both signs are equal, and a not-a-number equals nothing. -/
def numericEq (f : Format) (a b : Nat) : Bool :=
  !f.isNaN a && !f.isNaN b && (a == b || (f.isZero a && f.isZero b))

/-- Equality of a total order: like numeric equality, with all not-a-numbers equal to each other. -/
def orderedEq (f : Format) (a b : Nat) : Bool :=
  (f.isNaN a && f.isNaN b) || f.numericEq a b

end Format

end Breakpoint.Decimal
