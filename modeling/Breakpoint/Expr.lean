import Breakpoint.Decl
import Breakpoint.Operator

/-! Typed expressions of the source. Every node carries the static type that was found for it, if
any, and its excerpt. -/

namespace Breakpoint

/-- What is noted on an expression: its static type and the text it was written as. -/
structure Note where
  ty? : Option Ty := none
  excerpt : Excerpt := {}
deriving DecidableEq, Repr, Inhabited

/-- Whether a stepping operator stands before or after its operand. -/
inductive StepForm where
  | before
  | after
deriving DecidableEq, Repr, Inhabited

/-- An expression. -/
inductive Expr where
  /-- A constant. -/
  | literal (note : Note) (value : Constant)
  /-- A name, possibly qualified. -/
  | name (note : Note) (qualifier : Option Expr) (name : String) (decl : Decl)
  /-- The current instance, or that of an enclosing class. -/
  | thisRef (note : Note) (qualifier : Option ClassId)
  /-- The superclass view of the current instance, or that of an enclosing class. -/
  | superRef (note : Note) (qualifier : Option ClassId)
  /-- The class object of a type. -/
  | classLiteral (note : Note) (ty : Ty)
  /-- An expression in parentheses. -/
  | paren (note : Note) (inner : Expr)
  /-- Operands joined by binary operators of one precedence; there should be one operator fewer. -/
  | chain (note : Note) (operands : List Expr) (ops : List BinaryOp)
  /-- A unary operator. -/
  | unary (note : Note) (op : UnaryOp) (operand : Expr)
  /-- An increment or decrement. -/
  | step (note : Note) (op : StepOp) (form : StepForm) (operand : Expr)
  /-- An assignment. -/
  | assign (note : Note) (op : AssignOp) (target value : Expr)
  /-- A choice between two values. -/
  | conditional (note : Note) (condition thenValue elseValue : Expr)
  /-- A test of a value's class. -/
  | instanceOf (note : Note) (operand : Expr) (target : Ty)
  /-- An explicit cast. -/
  | cast (note : Note) (target : Ty) (operand : Expr)
  /-- An element of an array. -/
  | index (note : Note) (array index : Expr)
  /-- A method call; the method is missing if the name could not be resolved. -/
  | call (note : Note) (qualifier : Option Expr) (name : String) (method : Option MethodDecl)
      (args : List Expr)
  /-- The creation of an instance, possibly inside an explicit outer instance or with a class body.
  -/
  | newInstance (note : Note) (c : ClassId) (constructor : MethodDecl) (outer : Option Expr)
      (args : List Expr) (anonymous : Bool)
  /-- The creation of an array of the noted type, by its dimensions or by a brace list. -/
  | newArray (note : Note) (dims : List Expr) (init : Option Expr)
  /-- A brace list. -/
  | braces (note : Note) (elements : List Expr)
  /-- A lambda expression. -/
  | lambda (note : Note)
  /-- A method reference. -/
  | methodRef (note : Note)
deriving Inhabited

namespace Expr

/-- The note on the outermost node. -/
def note : Expr → Note
  | literal note .. | name note .. | thisRef note .. | superRef note .. | classLiteral note ..
  | paren note .. | chain note .. | unary note .. | step note .. | assign note ..
  | conditional note .. | instanceOf note .. | cast note .. | index note .. | call note ..
  | newInstance note .. | newArray note .. | braces note .. | lambda note | methodRef note => note

/-- The static type of an expression. -/
def ty? (e : Expr) : Option Ty := e.note.ty?

/-- The excerpt of an expression. -/
def excerpt (e : Expr) : Excerpt := e.note.excerpt

/-- Whether an expression is, without parentheses, the name of a type. -/
def isTypeName : Expr → Bool
  | name _ _ _ (.type _) => true
  | _ => false

/-- Whether an expression is, without parentheses, a brace list. -/
def isBraces : Expr → Bool
  | braces .. => true
  | _ => false

end Expr

end Breakpoint
