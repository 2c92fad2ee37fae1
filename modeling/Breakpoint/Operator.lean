/-! Operators. Binary operators fall into families. String concatenation apart, the family of an
operator decides how its operands are converted and what type the result has. -/

namespace Breakpoint

/-- The families of binary operators. -/
inductive Family where
  | conditional
  | bitwise
  | equality
  | relational
  | shift
  | arithmetic
deriving DecidableEq, Repr

/-- Binary operators, from loosest to tightest. -/
inductive BinaryOp where
  | or
  | and
  | bitOr
  | bitXor
  | bitAnd
  | eq
  | ne
  | lt
  | le
  | gt
  | ge
  | shiftLeft
  | shiftRight
  | shiftRightUnsigned
  | add
  | sub
  | mul
  | div
  | rem
deriving DecidableEq, Repr, Inhabited

namespace BinaryOp

/-- Every binary operator. -/
def all : List BinaryOp :=
  [.or, .and, .bitOr, .bitXor, .bitAnd, .eq, .ne, .lt, .le, .gt, .ge, .shiftLeft, .shiftRight,
    .shiftRightUnsigned, .add, .sub, .mul, .div, .rem]

/-- The family of an operator. -/
def family : BinaryOp → Family
  | or | and => .conditional
  | bitOr | bitXor | bitAnd => .bitwise
  | eq | ne => .equality
  | lt | le | gt | ge => .relational
  | shiftLeft | shiftRight | shiftRightUnsigned => .shift
  | add | sub | mul | div | rem => .arithmetic

/-- The operators that bring two numeric operands to a common kind. -/
def promotesOperands (op : BinaryOp) : Bool :=
  match op.family with
  | .arithmetic | .relational | .bitwise | .equality => true
  | .shift | .conditional => false

/-- The spelling of an operator. -/
def symbol : BinaryOp → String
  | or => "||"
  | and => "&&"
  | bitOr => "|"
  | bitXor => "^"
  | bitAnd => "&"
  | eq => "=="
  | ne => "!="
  | lt => "<"
  | le => "<="
  | gt => ">"
  | ge => ">="
  | shiftLeft => "<<"
  | shiftRight => ">>"
  | shiftRightUnsigned => ">>>"
  | add => "+"
  | sub => "-"
  | mul => "*"
  | div => "/"
  | rem => "%"

/-- The operator with a given spelling. -/
def ofSymbol? (symbol : String) : Option BinaryOp := all.find? fun op => op.symbol == symbol

end BinaryOp

/-- Operators on one value. -/
inductive UnaryOp where
  | plus
  | minus
  | bitNot
  | not
deriving DecidableEq, Repr, Inhabited

namespace UnaryOp

/-- Every unary operator. -/
def all : List UnaryOp := [.plus, .minus, .bitNot, .not]

/-- The spelling of an operator. -/
def symbol : UnaryOp → String
  | plus => "+"
  | minus => "-"
  | bitNot => "~"
  | not => "!"

/-- The operator with a given spelling. -/
def ofSymbol? (symbol : String) : Option UnaryOp := all.find? fun op => op.symbol == symbol

end UnaryOp

/-- Operators that step a variable by one. -/
inductive StepOp where
  | increment
  | decrement
deriving DecidableEq, Repr, Inhabited

namespace StepOp

/-- Every stepping operator. -/
def all : List StepOp := [.increment, .decrement]

/-- The spelling of an operator. -/
def symbol : StepOp → String
  | increment => "++"
  | decrement => "--"

/-- The operator with a given spelling. -/
def ofSymbol? (symbol : String) : Option StepOp := all.find? fun op => op.symbol == symbol

/-- The operation that a step performs with one. -/
def binary : StepOp → BinaryOp
  | increment => .add
  | decrement => .sub

end StepOp

/-- The assignment operators: the plain one and those that combine it with an operation. -/
inductive AssignOp where
  | plain
  | compound (op : BinaryOp)
deriving DecidableEq, Repr, Inhabited

namespace AssignOp

/-- Every assignment operator: arithmetic, bitwise and shift operations have a compound form. -/
def all : List AssignOp :=
  .plain :: [BinaryOp.add, .sub, .mul, .div, .rem, .bitAnd, .bitOr, .bitXor, .shiftLeft,
    .shiftRight, .shiftRightUnsigned].map compound

/-- The spelling of an operator. -/
def symbol : AssignOp → String
  | plain => "="
  | compound op => op.symbol ++ "="

/-- The operator with a given spelling. -/
def ofSymbol? (symbol : String) : Option AssignOp := all.find? fun op => op.symbol == symbol

end AssignOp

end Breakpoint
