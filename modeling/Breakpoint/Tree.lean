import Breakpoint.Decl
import Breakpoint.Operator

/-! Compiled trees. A tree says in full what an executor has to do with the suspended frame: every
conversion is a node of its own and carries the type it converts to. -/

namespace Breakpoint

/-- How the storage of a local variable is found. -/
inductive Slot where
  /-- A variable of the suspended frame. -/
  | frame
  /-- The parameter of that index of the suspended frame. -/
  | parameter (index : UInt32)
  /-- A variable that the compiled code declares. -/
  | fragment
  /-- By name, when the tree is executed. -/
  | deferred
deriving DecidableEq, Repr, Inhabited

/-- Which fields of a name are meant. -/
inductive FieldFilter where
  /-- The first one found on the object. -/
  | any
  /-- The one that a class declares. -/
  | declaredBy (c : ClassId)
deriving DecidableEq, Repr, Inhabited

/-- All that is needed to invoke a method or constructor. -/
structure MethodRef where
  declaring : ClassId
  name : String
  params : List Ty
  returnType : Ty
  isStatic : Bool
  varargs : Bool
deriving DecidableEq, Repr, Inhabited

/-- The reference to a declared method. -/
def MethodDecl.ref (m : MethodDecl) : MethodRef where
  declaring := m.declaring
  name := m.name
  params := m.params
  returnType := m.returnType
  isStatic := m.modifiers.isStatic
  varargs := m.varargs

mutual

/-- A compiled tree. -/
inductive Tree where
  /-- A constant value of the given type. -/
  | literal (value : Constant) (ty : Ty)
  /-- A local variable. -/
  | localVar (name : String) (slot : Slot)
  /-- A field of an object, or of a type. -/
  | field (object : Tree) (name : String) (filter : FieldFilter)
  /-- The instance reached by `depth` steps to the enclosing instance. -/
  | thisAt (depth : Nat)
  /-- The same instance, with members taken from the superclass. -/
  | superAt (depth : Nat)
  /-- A type, as the owner of static members. -/
  | typeRef (ty : Ty)
  /-- The class object of a type. -/
  | classObject (ty : Ty)
  /-- A method call. -/
  | call (object : Tree) (method : MethodRef) (args : List Tree)
  /-- A new instance. -/
  | newInstance (c : ClassId) (constructor : MethodRef) (args : List Tree)
  /-- A new array, of a given length or with given elements. -/
  | newArray (ty : Ty) (dimension : Option Tree) (elements : Option (List Tree))
  /-- An element of an array. -/
  | element (array index : Tree)
  /-- A store; `yieldsOld` asks for the value held before it. -/
  | assign (target value : Tree) (yieldsOld : Bool)
  /-- A binary operation. -/
  | binary (op : BinaryOp) (left right : Tree) (ty : Ty)
  /-- A unary operation. -/
  | unary (op : UnaryOp) (operand : Tree) (ty : Ty)
  /-- A choice between two values. -/
  | conditional (condition thenValue elseValue : Tree)
  /-- A test of a value's class. -/
  | instanceOf (operand : Tree) (ty : Ty)
  /-- A cast. -/
  | cast (operand : Tree) (ty : Ty)
  /-- A primitive value put into its wrapper. -/
  | box (operand : Tree) (kind : Kind)
  /-- A primitive value taken out of its wrapper. -/
  | unbox (operand : Tree) (kind : Kind)
  /-- A statement whose value stays reachable until the block around it ends. -/
  | pin (operand : Tree)
  /-- A block. -/
  | block (stmts : List Tree)
  /-- A declaration of local variables. -/
  | declare (locals : List LocalInit)
  /-- A choice between two statements. -/
  | ifElse (label : Option String) (condition thenBranch : Tree) (elseBranch : Option Tree)
  /-- A loop that tests before each round. -/
  | whileLoop (label : Option String) (condition body : Tree)
  /-- A loop that tests after each round. -/
  | doLoop (label : Option String) (body condition : Tree)
  /-- A loop with a header; without a condition it does not end by itself. -/
  | forLoop (label : Option String) (init : List Tree) (condition : Option Tree)
      (update : List Tree) (body : Tree)
  /-- A jump out of a statement. -/
  | breakTo (label : Option String)
  /-- A jump to the next round of a loop. -/
  | continueTo (label : Option String)
  /-- The end of the evaluation, with a value or without. -/
  | returnValue (value : Option Tree)
  /-- The end of the evaluation by an exception. -/
  | throwValue (value : Tree)
  /-- A whole statement list. -/
  | fragment (stmts : List Tree)

/-- A declared local variable: its zero value is stored first, then `init` is run. -/
inductive LocalInit where
  | mk (name : String) (ty : Ty) (zero : Tree) (init : Option Tree)

end

instance : Inhabited Tree := ⟨.block []⟩

/-- Whether a tree denotes a place that can be stored to. -/
def Tree.isLvalue : Tree → Bool
  | .localVar .. | .field .. | .element .. => true
  | _ => false

end Breakpoint
