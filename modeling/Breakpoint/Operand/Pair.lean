import Breakpoint.Operand

/-! Binary operations: how the two operands are converted, and what type the result has. -/

namespace Breakpoint

namespace BinaryOp

/-- String concatenation: an addition with a string on either side. -/
def concatenates (op : BinaryOp) (left right : Ty) : Bool :=
  op == .add && (left.isString || right.isString)

/-- Whether operands of these types are unwrapped. The null type and concatenation prevent it. An
equality unwraps only when it compares a primitive value with an object; any other operator does as
soon as one side is an object. -/
def unwraps (op : BinaryOp) (left right : Ty) : Bool :=
  if left.isNull || right.isNull then false
  else if op.concatenates left right then false
  else if op.family = .equality then
    (left.isPrim && right.isClass) || (left.isClass && right.isPrim)
  else left.isClass || right.isClass

/-- The kinds of two primitive numeric types. -/
def numericPair? (left right : Ty) : Option (Kind × Kind) :=
  match left, right with
  | .prim l, .prim r => if l.isNumeric && r.isNumeric then some (l, r) else none
  | _, _ => none

/-- The kinds of two primitive integral types. -/
def integralPair? (left right : Ty) : Option (Kind × Kind) :=
  (numericPair? left right).filter fun pair => pair.1.isIntegral && pair.2.isIntegral

/-- Whether both types are the primitive `boolean`. -/
def booleanPair (left right : Ty) : Bool := left == .boolean && right == .boolean

/-- The operands after conversion. They are unwrapped if the operator says so. The operands of a
shift are then promoted one by one; other operators bring two numbers to their common kind. -/
def convert (op : BinaryOp) (left right : Operand) : Operand × Operand :=
  let (left, right) :=
    if op.unwraps left.ty right.ty then (left.unwrap, right.unwrap) else (left, right)
  if op.family = .shift then (left.promote, right.promote)
  else if op.promotesOperands then
    match numericPair? left.ty right.ty with
    | some (l, r) => (left.castTo (.prim (l.join r)), right.castTo (.prim (l.join r)))
    | none => (left, right)
  else (left, right)

/-- The type of the result for converted operands of these types, if the operator applies to them.
-/
def result? (op : BinaryOp) (left right : Ty) : Option Ty :=
  if op.concatenates left right then some .string
  else
    match op.family with
    | .arithmetic => (numericPair? left right).map fun (l, r) => .prim (l.join r)
    | .shift => (integralPair? left right).map fun (l, _) => .prim l.promoted
    | .relational => (numericPair? left right).map fun _ => .boolean
    | .equality =>
      if (numericPair? left right).isSome || booleanPair left right ||
          (left.isReference && right.isReference) then some .boolean
      else none
    | .bitwise =>
      if booleanPair left right then some .boolean
      else (integralPair? left right).map fun (l, r) => .prim (l.join r)
    | .conditional => if booleanPair left right then some .boolean else none

end BinaryOp

end Breakpoint
