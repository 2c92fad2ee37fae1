import Breakpoint.Expr

/-! Statements of the source. -/

namespace Breakpoint

/-- A variable of a declaration statement, with its initial value. -/
structure Declarator where
  decl : LocalDecl
  init : Option Expr := none
  span : Span := {}
deriving Inhabited

/-- Kinds of statement that are recognised but never compiled. -/
inductive Unsupported where
  | foreach
  | switch
  | tryCatch
  | synchronized
  | assertion
  | localClass
deriving DecidableEq, Repr, Inhabited

/-- A statement. -/
inductive Stmt where
  /-- Nothing. -/
  | empty (excerpt : Excerpt)
  /-- An expression evaluated for its effect. -/
  | expr (excerpt : Excerpt) (e : Expr)
  /-- A declaration of local variables. -/
  | decl (excerpt : Excerpt) (vars : List Declarator)
  /-- A block. -/
  | block (excerpt : Excerpt) (stmts : List Stmt)
  /-- A choice between two statements. -/
  | ifElse (excerpt : Excerpt) (condition : Expr) (thenBranch : Stmt) (elseBranch : Option Stmt)
  /-- A loop that tests before each round. -/
  | whileLoop (excerpt : Excerpt) (condition : Expr) (body : Stmt)
  /-- A loop that tests after each round. -/
  | doLoop (excerpt : Excerpt) (body : Stmt) (condition : Expr)
  /-- A loop with a header. -/
  | forLoop (excerpt : Excerpt) (init : List Stmt) (condition : Option Expr) (update : List Expr)
      (body : Stmt)
  /-- A jump out of a statement. -/
  | breakTo (excerpt : Excerpt) (label : Option String)
  /-- A jump to the next round of a loop. -/
  | continueTo (excerpt : Excerpt) (label : Option String)
  /-- The end of the evaluation, with a value or without. -/
  | returnValue (excerpt : Excerpt) (value : Option Expr)
  /-- The end of the evaluation by an exception. -/
  | throwValue (excerpt : Excerpt) (value : Expr)
  /-- A statement with a label in front of it. -/
  | labeled (excerpt : Excerpt) (label : String) (body : Stmt)
  /-- A statement of another kind. -/
  | unsupported (excerpt : Excerpt) (kind : Unsupported)
deriving Inhabited

/-- The excerpt of a statement. -/
def Stmt.excerpt : Stmt → Excerpt
  | empty excerpt | expr excerpt _ | decl excerpt _ | block excerpt _ | ifElse excerpt _ _ _
  | whileLoop excerpt _ _ | doLoop excerpt _ _ | forLoop excerpt _ _ _ _ | breakTo excerpt _
  | continueTo excerpt _ | returnValue excerpt _ | throwValue excerpt _ | labeled excerpt _ _
  | unsupported excerpt _ => excerpt

end Breakpoint
