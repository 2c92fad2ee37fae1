import Breakpoint.Lower.Stmt

/-! Compilation at a site. Each call starts from an empty context, so calls do not influence each
other. -/

namespace Breakpoint

/-- The outcome of a compilation that starts in the empty context of `site`. -/
def Lowering.outcome {α : Type} (body : Lowering α) (site : Site) : Except Fault α :=
  (body.run.run (Context.start site)).1

/-- Compiles an expression. -/
def compileExpr (site : Site) (e : Expr) : Except Fault Tree :=
  (Context.start site).view.lower .value e

/-- Compiles a statement on its own. There is no open statement list, so it cannot declare locals,
not even inside a block or in the header of a loop. -/
def compileStmt (site : Site) (stmt : Stmt) : Except Fault Tree :=
  (lowerStmt .single stmt).outcome site

/-- Compiles a statement list. -/
def compileFragment (site : Site) (stmts : List Stmt) : Except Fault Tree :=
  (lowerFragment stmts).outcome site

end Breakpoint
