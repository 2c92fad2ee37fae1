import Breakpoint.Ty
import Breakpoint.Text.Quoted
import Breakpoint.Decimal.Layout

/-! Constant values. Floating-point constants are bit patterns, so that every not-a-number keeps its
payload and a zero its sign. Two equalities are in use: source constants are compared as numbers,
while compiled constants are compared so that every value equals itself. -/

namespace Breakpoint

/-- A constant of the source or of a compiled tree. -/
inductive Constant where
  | null
  | bool (value : Bool)
  | char (value : Char)
  | int (value : Int32)
  | long (value : Int64)
  | float (bits : UInt32)
  | double (bits : UInt64)
  | string (value : String)
deriving DecidableEq, Repr, Inhabited

namespace Constant

/-- The type of a constant written in the source. -/
def ty : Constant → Ty
  | null => .null
  | bool _ => .prim .boolean
  | char _ => .prim .char
  | int _ => .prim .int
  | long _ => .prim .long
  | float _ => .prim .float
  | double _ => .prim .double
  | string _ => .string

/-- The value that a variable of type `t` holds before anything is stored in it. -/
def zero (t : Ty) : Constant :=
  match t.prim? with
  | some .boolean => bool false
  | some .char => char '\x00'
  | some .byte | some .short | some .int => int 0
  | some .long => long 0
  | some .float => float 0
  | some .double => double 0
  | none => null

/-- Floating-point constants between one ten-thousandth and ten quadrillions are written
positionally. -/
def layout : Decimal.Layout := ⟨-4, 16⟩

/-- The text of a constant. A `long` ends in `L` and a `float` in `f`. -/
def render : Constant → String
  | null => "null"
  | bool value => if value then "true" else "false"
  | char value => Text.quoteChar value
  | int value => toString value.toInt
  | long value => toString value.toInt ++ "L"
  | float bits => layout.render .single bits.toNat ++ "f"
  | double bits => layout.render .double bits.toNat
  | string value => Text.quoteString value

/-- Equality of source constants: floating-point constants are compared as numbers, so a
not-a-number differs from itself and the two zeros are equal. -/
def numericEq : Constant → Constant → Bool
  | float a, float b => Decimal.Format.single.numericEq a.toNat b.toNat
  | double a, double b => Decimal.Format.double.numericEq a.toNat b.toNat
  | a, b => a == b

/-- Equality of compiled constants: as for source constants, with all not-a-numbers equal. -/
def orderedEq : Constant → Constant → Bool
  | float a, float b => Decimal.Format.single.orderedEq a.toNat b.toNat
  | double a, double b => Decimal.Format.double.orderedEq a.toNat b.toNat
  | a, b => a == b

end Constant

end Breakpoint
