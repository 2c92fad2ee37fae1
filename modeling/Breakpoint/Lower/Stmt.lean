import Breakpoint.Lower.Expr

/-! Statements to trees. Compiling a statement may enter frames and jump targets and may be refused
half way; whatever it entered, it leaves again, so the outcome always comes with the context it
leaves behind. -/

namespace Breakpoint

/-- A compilation that may be refused, and that leaves a context behind in either case. -/
abbrev Lowering := ExceptT Fault (StateM Context)

/-- Where a statement stands. -/
inductive Placement where
  /-- On its own: as a branch or as the body of a loop. -/
  | single
  /-- In a list, where declarations are allowed. -/
  | listed
  /-- Behind a label. -/
  | labeled (label : String)
deriving DecidableEq, Repr

namespace Placement

/-- The label in front of the statement. -/
def label? : Placement → Option String
  | labeled label => some label
  | single | listed => none

end Placement

namespace Lowering

/-- The outcome of compiling an expression in the current context. -/
def ofView {α : Type} (outcome : View → Except Fault α) : Lowering α := do
  ExceptT.mk (pure (outcome (← get).view))

/-- Refuses with `cause`, blaming `excerpt`. -/
def refuse {α : Type} (excerpt : Excerpt) (cause : Cause) : Lowering α :=
  ExceptT.mk (pure (excerpt.refuse cause))

/-- Runs `body` in the context that `enter` makes, and restores it by `leave` whether or not `body`
is refused. -/
def bracket {α : Type} (enter leave : Context → Context) (body : Lowering α) : Lowering α :=
  ExceptT.mk do
    modify enter
    let outcome ← body.run
    modify leave
    pure outcome

/-- Runs `body` in a new frame. -/
def inFrame {α : Type} (body : Lowering α) : Lowering α :=
  bracket Context.enterFrame Context.leaveFrame body

/-- Runs `body` in the frame of a statement list. -/
def inRoot {α : Type} (body : Lowering α) : Lowering α :=
  bracket Context.enterRoot Context.leaveFrame body

/-- Runs `body` inside a loop. -/
def inLoop {α : Type} (label : Option String) (body : Lowering α) : Lowering α :=
  bracket (Context.enterLoop label) Context.leaveTarget body

/-- Runs `body` inside a labelled statement; without a label there is nothing to enter. -/
def inLabeled {α : Type} (label : Option String) (body : Lowering α) : Lowering α :=
  match label with
  | some label => bracket (Context.enterLabeled label) Context.leaveTarget body
  | none => body

/-- Statements that no label can stand in front of. -/
def unlabeled {α : Type} (placement : Placement) (excerpt : Excerpt) (body : Lowering α) :
    Lowering α :=
  match placement with
  | .labeled label => refuse excerpt (.invalidLabelTarget label)
  | .single | .listed => body

/-- Declares a local in the current frame. -/
def declare (entry : LocalEntry) (text : String) : Lowering Unit := ExceptT.mk do
  let context ← get
  match context.arena.declare entry text with
  | .ok arena => do
    set { context with arena }
    pure (.ok ())
  | .error fault => pure (.error fault)

/-- Checks a jump against the targets around it. -/
def jump (check : Jumps → Except Fault Unit) : Lowering Unit := do
  ExceptT.mk (pure (check (← get).jumps))

end Lowering

open Lowering

/-- The store of an initial value in a declared variable. -/
def View.lowerInit (v : View) (name : String) (ty : Ty) : Option Expr → Except Fault (Option Tree)
  | none => pure none
  | some e => do
    let value ← v.lowerInitial ty e
    pure (some (.assign (.localVar name .fragment) value false))

/-- One declared variable. It is declared before its initial value is compiled, which can therefore
mention it; at run time it holds its zero value until then. -/
def lowerVar (excerpt : Excerpt) (var : Declarator) : Lowering LocalInit := do
  let name := var.decl.name
  let ty := var.decl.ty
  declare ⟨name, ty, var.span.orElse excerpt.span⟩ excerpt.text
  let init ← ofView fun v => v.lowerInit name ty var.init
  pure (.mk name ty (.literal (.zero ty) ty) init)

/-- The variables of a declaration statement, in order. -/
def lowerVars (excerpt : Excerpt) : List Declarator → Lowering (List LocalInit)
  | [] => pure []
  | var :: rest => do
    let entry ← lowerVar excerpt var
    let entries ← lowerVars excerpt rest
    pure (entry :: entries)

/-- A declaration statement. -/
def lowerDecl (excerpt : Excerpt) (vars : List Declarator) : Lowering Tree := do
  let entries ← lowerVars excerpt vars
  pure (.declare entries)

/-- Expressions compiled for their values, in order. -/
def View.lowerValues (v : View) : List Expr → Except Fault (List Tree)
  | [] => pure []
  | e :: rest => do
    let tree ← v.lower .value e
    let trees ← v.lowerValues rest
    pure (tree :: trees)

mutual

/-- The tree of a statement. -/
def lowerStmt (placement : Placement) : Stmt → Lowering Tree
  | .empty excerpt => unlabeled placement excerpt (pure (.block []))
  | .expr excerpt e => unlabeled placement excerpt (ofView fun v => v.lower .value e)
  | .decl excerpt vars =>
    match placement with
    | .listed => lowerDecl excerpt vars
    | _ => unlabeled placement excerpt (refuse excerpt .declarationOutsideFragment)
  | .block excerpt stmts => unlabeled placement excerpt <| inFrame do
    let items ← lowerItems stmts
    pure (.block (items.map .pin))
  | .ifElse _ condition thenBranch elseBranch => do
    let test ← ofView fun v => v.lowerCondition condition
    let branches ← inLabeled placement.label? do
      let first ← lowerStmt .single thenBranch
      let second ← lowerElse elseBranch
      pure (first, second)
    pure (.ifElse placement.label? test branches.1 branches.2)
  | .whileLoop _ condition body => do
    let test ← ofView fun v => v.lowerCondition condition
    let round ← inLoop placement.label? (lowerStmt .single body)
    pure (.whileLoop placement.label? test round)
  | .doLoop _ body condition => do
    let round ← inLoop placement.label? (lowerStmt .single body)
    let test ← ofView fun v => v.lowerCondition condition
    pure (.doLoop placement.label? round test)
  | .forLoop _ init condition update body => inFrame do
    let first ← lowerItems init
    let test ← ofView fun v => condition.mapM v.lowerCondition
    let next ← ofView fun v => v.lowerValues update
    let round ← inLoop placement.label? (lowerStmt .single body)
    pure (.forLoop placement.label? first test next round)
  | .breakTo excerpt label => unlabeled placement excerpt do
    jump fun j => j.checkBreak label excerpt
    pure (.breakTo label)
  | .continueTo excerpt label => unlabeled placement excerpt do
    jump fun j => j.checkContinue label excerpt
    pure (.continueTo label)
  | .returnValue excerpt value => unlabeled placement excerpt do
    let tree ← ofView fun v => value.mapM (v.lower .value)
    pure (.returnValue tree)
  | .throwValue excerpt value => unlabeled placement excerpt do
    let tree ← ofView fun v => v.lower .value value
    pure (.throwValue tree)
  | .labeled excerpt label body =>
    unlabeled placement excerpt (lowerStmt (.labeled label) body)
  | .unsupported excerpt kind =>
    unlabeled placement excerpt (refuse excerpt (.unsupportedConstruct (.statement kind)))

/-- The tree of a branch that may be missing. -/
def lowerElse : Option Stmt → Lowering (Option Tree)
  | none => pure none
  | some stmt => do
    let tree ← lowerStmt .single stmt
    pure (some tree)

/-- The trees of a statement list. -/
def lowerItems : List Stmt → Lowering (List Tree)
  | [] => pure []
  | stmt :: rest => do
    let tree ← lowerStmt .listed stmt
    let trees ← lowerItems rest
    pure (tree :: trees)

end

/-- The tree of a block, in a frame of its own; each of its statements is pinned. -/
def lowerBlock (stmts : List Stmt) : Lowering Tree := lowerStmt .single (.block {} stmts)

/-- The tree of a whole statement list, in a root frame of its own. -/
def lowerFragment (stmts : List Stmt) : Lowering Tree := inRoot do
  let items ← lowerItems stmts
  pure (.fragment items)

end Breakpoint
