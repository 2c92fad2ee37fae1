import Breakpoint.Proofs.Nodes
import Breakpoint.Proofs.Outcome

/-!
One rule for each form of statement that compiles. What is said about compilations is a logic: it
has rules for the ways in which compilations are put together, and keeps those that give the current
frame back apart from those that may add locals to it. What is said about results is a specification
of the trees of expressions, variables and statements. If the specification is closed under the
forms of statements and the logic holds of the smallest parts, it holds of every statement, and the
recursion over statements is gone through once.
-/

namespace Breakpoint

mutual

/-- A statement and all statements inside it. -/
def Stmt.nodes (s : Stmt) : List Stmt :=
  s :: match s with
    | .empty _ | .expr .. | .decl .. | .breakTo .. | .continueTo .. | .returnValue ..
    | .throwValue .. | .unsupported .. => []
    | .block _ stmts => Stmt.nodesOfList stmts
    | .ifElse _ _ thenBranch elseBranch => thenBranch.nodes ++ Stmt.nodesOfOption elseBranch
    | .whileLoop _ _ body | .doLoop _ body _ | .labeled _ _ body => body.nodes
    | .forLoop _ init _ _ body => Stmt.nodesOfList init ++ body.nodes

/-- The nodes of several statements, one statement after the other. -/
def Stmt.nodesOfList : List Stmt → List Stmt
  | [] => []
  | s :: rest => s.nodes ++ Stmt.nodesOfList rest

/-- The nodes of a statement that may be missing. -/
def Stmt.nodesOfOption : Option Stmt → List Stmt
  | none => []
  | some s => s.nodes

end

section Members

variable {E : Expr → Prop} {S : Stmt → Prop}

theorem Stmt.forall_exprsOfList {stmts : List Stmt} :
    (∀ e ∈ Stmt.exprsOfList stmts, E e) ↔ ∀ s ∈ stmts, ∀ e ∈ s.exprs, E e := by
  induction stmts with
  | nil => simp [exprsOfList]
  | cons s rest ih => rw [exprsOfList, List.forall_mem_append, List.forall_mem_cons, ih]

theorem Stmt.forall_nodesOfList {stmts : List Stmt} :
    (∀ n ∈ Stmt.nodesOfList stmts, S n) ↔ ∀ s ∈ stmts, ∀ n ∈ s.nodes, S n := by
  induction stmts with
  | nil => simp [nodesOfList]
  | cons s rest ih => rw [nodesOfList, List.forall_mem_append, List.forall_mem_cons, ih]

theorem Stmt.forall_exprsOfOption {branch : Option Stmt} :
    (∀ e ∈ Stmt.exprsOfOption branch, E e) ↔ ∀ s ∈ branch, ∀ e ∈ s.exprs, E e := by
  cases branch <;> simp [exprsOfOption]

theorem Stmt.forall_nodesOfOption {branch : Option Stmt} :
    (∀ n ∈ Stmt.nodesOfOption branch, S n) ↔ ∀ s ∈ branch, ∀ n ∈ s.nodes, S n := by
  cases branch <;> simp [nodesOfOption]

end Members

/-- The causes for which a statement is blamed with its own excerpt. -/
def Cause.ofStmt : Cause → Bool
  | unsupportedConstruct _ | breakOutsideLoop | continueOutsideLoop | undefinedLabel _
  | notALoopLabel _ | invalidLabelTarget _ => true
  | _ => false

/-- The statement is a declaration in a list, which may add to the current frame. -/
def Stmt.Adds (placement : Placement) (s : Stmt) : Prop :=
  placement = .listed ∧ ∃ excerpt vars, s = .decl excerpt vars

namespace Lowering

/-- What can be said about compilations and their results: `Holds` is said of those that give the
current frame back, `HoldsInList` of those that may add to it. -/
structure Logic where
  Holds : {α : Type} → (α → Prop) → Lowering α → Prop
  HoldsInList : {α : Type} → (α → Prop) → Lowering α → Prop
  pure {α : Type} {P : α → Prop} {a : α} (ha : P a) : Holds P (pure a)
  bind {α β : Type} {P : α → Prop} {R : β → Prop} {body : Lowering α} {k : α → Lowering β}
    (hbody : Holds P body) (hk : ∀ a, P a → Holds R (k a)) : Holds R (body >>= k)
  inList {α : Type} {P : α → Prop} {body : Lowering α} (hbody : Holds P body) : HoldsInList P body
  bindInList {α β : Type} {P : α → Prop} {R : β → Prop} {body : Lowering α} {k : α → Lowering β}
    (hbody : HoldsInList P body) (hk : ∀ a, P a → HoldsInList R (k a)) : HoldsInList R (body >>= k)
  inFrame {α : Type} {P : α → Prop} {body : Lowering α} (hbody : HoldsInList P body) :
    Holds P (inFrame body)
  inLoop {α : Type} {P : α → Prop} {body : Lowering α} (label : Option String)
    (hbody : Holds P body) : Holds P (inLoop label body)
  inLabeled {α : Type} {P : α → Prop} {body : Lowering α} (label : Option String)
    (hbody : Holds P body) : Holds P (inLabeled label body)

variable {α β : Type}

/-- Expressions that are compiled one after the other are compiled in the same view. -/
theorem ofView_bind (x : View → Except Fault α) (k : View → α → Except Fault β) :
    (ofView fun v => x v >>= k v) = ofView x >>= fun a => ofView fun v => k v a := by
  refine ExceptT.ext (StateT.ext fun c => ?_)
  change (x c.view >>= k c.view, c) = (ofView x >>= fun a => ofView fun v => k v a).run.run c
  rw [run_bind]
  change _ = match (x c.view, c) with
    | (.ok a, c') => (ofView fun v => k v a).run.run c'
    | (.error fault, c') => (.error fault, c')
  cases x c.view <;> rfl

namespace Logic

variable {P P' : α → Prop} {body : Lowering α}

theorem imp (L : Logic) (h : L.Holds P body) (hP : ∀ a, P a → P' a) : L.Holds P' body := by
  rw [← bind_pure body]
  exact L.bind h fun a ha => L.pure (hP a ha)

theorem option (L : Logic) {f : View → Expr → Except Fault Tree} {V : Expr → Tree → Prop}
    (o : Option Expr) (h : ∀ e ∈ o, L.Holds (V e) (ofView fun v => f v e)) :
    L.Holds (Option.Rel V o) (ofView fun v => o.mapM (f v)) := by
  cases o with
  | none => exact L.pure .none
  | some e =>
      have hbind := ofView_bind (fun v => f v e) fun _ t => Except.ok (some t)
      refine hbind ▸ L.bind (h e rfl) fun t ht => L.pure (.some ht)

theorem values (L : Logic) {V : Expr → Tree → Prop} (exprs : List Expr)
    (h : ∀ e ∈ exprs, L.Holds (V e) (ofView fun v => v.lower .value e)) :
    L.Holds (exprs.Forall₂ V) (ofView fun v => v.lowerValues exprs) := by
  induction exprs with
  | nil => exact L.pure .nil
  | cons e rest ih =>
      obtain ⟨he, hrest⟩ := List.forall_mem_cons.1 h
      have hbind := ofView_bind (fun v => v.lower .value e) fun v t =>
        v.lowerValues rest >>= fun trees => Except.ok (t :: trees)
      refine hbind ▸ L.bind he fun t ht => ?_
      rw [ofView_bind]
      exact L.bind (ih hrest) fun trees htrees => L.pure (.cons ht htrees)

end Logic

/-- Every result satisfies `P`. -/
def Results (P : α → Prop) (body : Lowering α) : Prop :=
  ∀ c : Context, Meets c (fun _ _ => True) (fun a _ => P a) body

section Results

variable {P : α → Prop} {R : β → Prop} {body : Lowering α}

theorem results_any (body : Lowering α) : body.Results fun _ => True :=
  fun c => yields_any (body.run.run c).1

theorem results_pure {a : α} (ha : P a) : (pure a : Lowering α).Results P := fun _ => meets_pure ha

theorem results_refuse (excerpt : Excerpt) (cause : Cause) :
    (refuse excerpt cause : Lowering α).Results P :=
  fun _ => meets_refuse trivial

theorem Results.bind {k : α → Lowering β} (h : body.Results P) (hk : ∀ a, P a → (k a).Results R) :
    (body >>= k).Results R :=
  fun c => (h c).bind fun a c' ha => hk a ha c'

theorem Results.bracket {enter leave : Context → Context} (h : body.Results P) :
    (bracket enter leave body).Results P :=
  fun c => meets_bracket (h (enter c))

theorem Results.inLabeled (label : Option String) (h : body.Results P) :
    (inLabeled label body).Results P := by
  cases label with
  | none => exact h
  | some label => exact h.bracket

end Results

/-- What can be said about compilations whatever their results are. A compilation that follows on
another one only has to be good for the results that this one can have. -/
structure Discipline where
  Holds : {α : Type} → Lowering α → Prop
  HoldsInList : {α : Type} → Lowering α → Prop
  pure {α : Type} (a : α) : Holds (pure a)
  bind {α β : Type} {P : α → Prop} {body : Lowering α} {k : α → Lowering β} (hbody : Holds body)
    (hresults : body.Results P) (hk : ∀ a, P a → Holds (k a)) : Holds (body >>= k)
  inList {α : Type} {body : Lowering α} (hbody : Holds body) : HoldsInList body
  bindInList {α β : Type} {P : α → Prop} {body : Lowering α} {k : α → Lowering β}
    (hbody : HoldsInList body) (hresults : body.Results P) (hk : ∀ a, P a → HoldsInList (k a)) :
    HoldsInList (body >>= k)
  inFrame {α : Type} {body : Lowering α} (hbody : HoldsInList body) : Holds (inFrame body)
  inLoop {α : Type} {body : Lowering α} (label : Option String) (hbody : Holds body) :
    Holds (inLoop label body)
  inLabeled {α : Type} {body : Lowering α} (label : Option String) (hbody : Holds body) :
    Holds (inLabeled label body)

/-- A discipline beside what is known about results. -/
def Discipline.logic (D : Discipline) : Logic where
  Holds P body := D.Holds body ∧ body.Results P
  HoldsInList P body := D.HoldsInList body ∧ body.Results P
  pure ha := ⟨D.pure _, results_pure ha⟩
  bind hbody hk :=
    ⟨D.bind hbody.1 hbody.2 fun a ha => (hk a ha).1, hbody.2.bind fun a ha => (hk a ha).2⟩
  inList hbody := ⟨D.inList hbody.1, hbody.2⟩
  bindInList hbody hk :=
    ⟨D.bindInList hbody.1 hbody.2 fun a ha => (hk a ha).1, hbody.2.bind fun a ha => (hk a ha).2⟩
  inFrame hbody := ⟨D.inFrame hbody.1, hbody.2.bracket⟩
  inLoop label hbody := ⟨D.inLoop label hbody.1, hbody.2.bracket⟩
  inLabeled label hbody := ⟨D.inLabeled label hbody.1, hbody.2.inLabeled label⟩

end Lowering

open Lowering

/-- What is said about the trees of expressions, of variables and of statements. -/
structure Stmt.Spec where
  value : Expr → Tree → Prop
  condition : Expr → Tree → Prop
  entry : Declarator → LocalInit → Prop
  stmt : Placement → Stmt → Tree → Prop

namespace Stmt.Spec

/-- The specification is closed under each form of statement that compiles. -/
structure Closed (q : Spec) : Prop where
  empty {placement : Placement} {excerpt : Excerpt} (hplace : placement.label? = none) :
    q.stmt placement (.empty excerpt) (.block [])
  expr {placement : Placement} {excerpt : Excerpt} {e : Expr} {t : Tree}
    (hplace : placement.label? = none) (ht : q.value e t) : q.stmt placement (.expr excerpt e) t
  decl {excerpt : Excerpt} {vars : List Declarator} {entries : List LocalInit}
    (hentries : vars.Forall₂ q.entry entries) :
    q.stmt .listed (.decl excerpt vars) (.declare entries)
  block {placement : Placement} {excerpt : Excerpt} {stmts : List Stmt} {items : List Tree}
    (hplace : placement.label? = none) (hitems : stmts.Forall₂ (q.stmt .listed) items) :
    q.stmt placement (.block excerpt stmts) (.block (items.map .pin))
  ifElse {placement : Placement} {excerpt : Excerpt} {condition : Expr} {thenBranch : Stmt}
    {elseBranch : Option Stmt} {test first : Tree} {second : Option Tree}
    (htest : q.condition condition test) (hfirst : q.stmt .single thenBranch first)
    (hsecond : Option.Rel (q.stmt .single) elseBranch second) :
    q.stmt placement (.ifElse excerpt condition thenBranch elseBranch)
      (.ifElse placement.label? test first second)
  whileLoop {placement : Placement} {excerpt : Excerpt} {condition : Expr} {body : Stmt}
    {test round : Tree} (htest : q.condition condition test) (hround : q.stmt .single body round) :
    q.stmt placement (.whileLoop excerpt condition body) (.whileLoop placement.label? test round)
  doLoop {placement : Placement} {excerpt : Excerpt} {condition : Expr} {body : Stmt}
    {test round : Tree} (hround : q.stmt .single body round) (htest : q.condition condition test) :
    q.stmt placement (.doLoop excerpt body condition) (.doLoop placement.label? round test)
  forLoop {placement : Placement} {excerpt : Excerpt} {init : List Stmt} {condition : Option Expr}
    {update : List Expr} {body : Stmt} {first next : List Tree} {test : Option Tree} {round : Tree}
    (hfirst : init.Forall₂ (q.stmt .listed) first) (htest : Option.Rel q.condition condition test)
    (hnext : update.Forall₂ q.value next) (hround : q.stmt .single body round) :
    q.stmt placement (.forLoop excerpt init condition update body)
      (.forLoop placement.label? first test next round)
  breakTo {placement : Placement} {excerpt : Excerpt} {label : Option String}
    (hplace : placement.label? = none) : q.stmt placement (.breakTo excerpt label) (.breakTo label)
  continueTo {placement : Placement} {excerpt : Excerpt} {label : Option String}
    (hplace : placement.label? = none) :
    q.stmt placement (.continueTo excerpt label) (.continueTo label)
  returnValue {placement : Placement} {excerpt : Excerpt} {value : Option Expr} {t : Option Tree}
    (hplace : placement.label? = none) (ht : Option.Rel q.value value t) :
    q.stmt placement (.returnValue excerpt value) (.returnValue t)
  throwValue {placement : Placement} {excerpt : Excerpt} {value : Expr} {t : Tree}
    (hplace : placement.label? = none) (ht : q.value value t) :
    q.stmt placement (.throwValue excerpt value) (.throwValue t)
  labeled {placement : Placement} {excerpt : Excerpt} {label : String} {body : Stmt} {t : Tree}
    (hplace : placement.label? = none) (ht : q.stmt (.labeled label) body t) :
    q.stmt placement (.labeled excerpt label body) t

/-- Nothing is said about trees. -/
def any : Spec := ⟨fun _ _ => True, fun _ _ => True, fun _ _ => True, fun _ _ _ => True⟩

theorem closed_any : any.Closed := by
  constructor <;> intros <;> trivial

/-- The logic holds of the smallest parts of statements whose expressions satisfy `E` and which
satisfy `S`: of their expressions and variables, and of what they refuse and check. -/
structure Parts (q : Spec) (L : Logic) (E : Expr → Prop) (S : Stmt → Prop) : Prop where
  value : ∀ e, E e → L.Holds (q.value e) (ofView fun v => v.lower .value e)
  condition : ∀ e, E e → L.Holds (q.condition e) (ofView fun v => v.lowerCondition e)
  entry : ∀ excerpt vars, S (.decl excerpt vars) → ∀ var ∈ vars, (∀ e ∈ var.init, E e) →
    L.HoldsInList (q.entry var) (lowerVar excerpt var)
  refuse : ∀ s (cause : Cause), S s → cause.ofStmt → ∀ P : Tree → Prop,
    L.Holds P (Lowering.refuse s.excerpt cause)
  stray : ∀ excerpt vars, S (.decl excerpt vars) → ∀ P : Tree → Prop,
    L.Holds P (Lowering.refuse excerpt .declarationOutsideFragment)
  checkBreak : ∀ excerpt label, S (.breakTo excerpt label) →
    L.Holds (fun _ => True) (jump fun j => j.checkBreak label excerpt)
  checkContinue : ∀ excerpt label, S (.continueTo excerpt label) →
    L.Holds (fun _ => True) (jump fun j => j.checkContinue label excerpt)

namespace Parts

variable {q : Spec} {L : Logic} {E : Expr → Prop} {S : Stmt → Prop}

/-- A statement that no label can stand in front of. -/
theorem unlabeled (parts : q.Parts L E S) {s : Stmt} (hs : S s) {placement : Placement}
    {P : Tree → Prop} {body : Lowering Tree} (h : placement.label? = none → L.Holds P body) :
    L.Holds P (Lowering.unlabeled placement s.excerpt body) := by
  cases placement with
  | labeled label => exact parts.refuse s _ hs rfl P
  | single => exact h rfl
  | listed => exact h rfl

theorem lowerVars {excerpt : Excerpt} {vars : List Declarator}
    (h : ∀ var ∈ vars, L.HoldsInList (q.entry var) (lowerVar excerpt var)) :
    L.HoldsInList (vars.Forall₂ q.entry) (Breakpoint.lowerVars excerpt vars) := by
  induction vars with
  | nil => exact L.inList (L.pure .nil)
  | cons var rest ih =>
      obtain ⟨hvar, hrest⟩ := List.forall_mem_cons.1 h
      rw [Breakpoint.lowerVars]
      refine L.bindInList hvar fun entry hentry => ?_
      refine L.bindInList (ih hrest) fun entries hentries => ?_
      exact L.inList (L.pure (.cons hentry hentries))

/-- A declaration in a list, or any other statement there. -/
theorem listed (parts : q.Parts L E S) (closed : q.Closed) {s : Stmt} (hexprs : ∀ e ∈ s.exprs, E e)
    (hnodes : ∀ n ∈ s.nodes, S n)
    (h : ¬s.Adds .listed → L.Holds (q.stmt .listed s) (Breakpoint.lowerStmt .listed s)) :
    L.HoldsInList (q.stmt .listed s) (Breakpoint.lowerStmt .listed s) := by
  by_cases hadds : s.Adds .listed
  · obtain ⟨-, excerpt, vars, rfl⟩ := hadds
    rw [Stmt.exprs] at hexprs
    rw [Stmt.nodes] at hnodes
    rw [Breakpoint.lowerStmt, lowerDecl]
    have hvars : ∀ var ∈ vars, L.HoldsInList (q.entry var) (lowerVar excerpt var) := by
      intro var hvar
      refine parts.entry excerpt vars (hnodes _ List.mem_cons_self) var hvar fun e he => ?_
      exact hexprs e (List.mem_filterMap.2 ⟨var, hvar, he⟩)
    refine L.bindInList (lowerVars hvars) fun entries hentries => ?_
    exact L.inList (L.pure (closed.decl hentries))
  · exact L.inList (h hadds)

mutual

/-- The logic holds of a statement that is not a declaration in a list. -/
theorem lowerStmt (parts : q.Parts L E S) (closed : q.Closed) :
    ∀ (placement : Placement) (s : Stmt), (∀ e ∈ s.exprs, E e) → (∀ n ∈ s.nodes, S n) →
      ¬s.Adds placement → L.Holds (q.stmt placement s) (Breakpoint.lowerStmt placement s)
  | placement, .empty excerpt, hexprs, hnodes, _ => by
      rw [Stmt.nodes] at hnodes
      rw [Breakpoint.lowerStmt]
      exact parts.unlabeled (s := .empty excerpt) (hnodes _ List.mem_cons_self) fun hplace =>
        L.pure (closed.empty hplace)
  | placement, .expr excerpt e, hexprs, hnodes, _ => by
      rw [Stmt.exprs] at hexprs
      rw [Stmt.nodes] at hnodes
      rw [Breakpoint.lowerStmt]
      refine parts.unlabeled (s := .expr excerpt e) (hnodes _ List.mem_cons_self) fun hplace => ?_
      exact L.imp (parts.value e (hexprs e List.mem_cons_self)) fun t => closed.expr hplace
  | placement, .decl excerpt vars, hexprs, hnodes, hadds => by
      rw [Stmt.nodes] at hnodes
      have hs := hnodes _ List.mem_cons_self
      cases placement with
      | listed => exact absurd ⟨rfl, excerpt, vars, rfl⟩ hadds
      | _ =>
          rw [Breakpoint.lowerStmt]
          · exact parts.unlabeled hs fun _ => parts.stray excerpt vars hs _
          · simp
  | placement, .block excerpt stmts, hexprs, hnodes, _ => by
      rw [Stmt.exprs] at hexprs
      rw [Stmt.nodes] at hnodes
      obtain ⟨hs, hnodes⟩ := List.forall_mem_cons.1 hnodes
      rw [Breakpoint.lowerStmt]
      refine parts.unlabeled hs fun hplace => L.inFrame ?_
      refine L.bindInList (lowerItems parts closed stmts hexprs hnodes) fun items hitems => ?_
      exact L.inList (L.pure (closed.block hplace hitems))
  | placement, .ifElse excerpt condition thenBranch elseBranch, hexprs, hnodes, _ => by
      simp only [Stmt.exprs, List.forall_mem_append, List.forall_mem_cons] at hexprs
      simp only [Stmt.nodes, List.forall_mem_append, List.forall_mem_cons] at hnodes
      obtain ⟨⟨hcondition, hthen⟩, helse⟩ := hexprs
      obtain ⟨-, hthenNodes, helseNodes⟩ := hnodes
      have hfirst := lowerStmt parts closed .single thenBranch hthen hthenNodes (by simp [Adds])
      have hsecond := lowerElse parts closed elseBranch helse helseNodes
      rw [Breakpoint.lowerStmt]
      refine L.bind (parts.condition condition hcondition) fun test htest => ?_
      refine L.bind (P := fun branches => q.stmt .single thenBranch branches.1 ∧
        Option.Rel (q.stmt .single) elseBranch branches.2) (L.inLabeled _ ?_) ?_
      · refine L.bind hfirst fun first hfirst => L.bind hsecond fun second hsecond => ?_
        exact L.pure ⟨hfirst, hsecond⟩
      · intro branches hbranches
        exact L.pure (closed.ifElse htest hbranches.1 hbranches.2)
  | placement, .whileLoop excerpt condition body, hexprs, hnodes, _ => by
      rw [Stmt.exprs] at hexprs
      rw [Stmt.nodes] at hnodes
      obtain ⟨hcondition, hexprs⟩ := List.forall_mem_cons.1 hexprs
      obtain ⟨-, hnodes⟩ := List.forall_mem_cons.1 hnodes
      have hround := lowerStmt parts closed .single body hexprs hnodes (by simp [Adds])
      rw [Breakpoint.lowerStmt]
      refine L.bind (parts.condition condition hcondition) fun test htest => ?_
      refine L.bind (L.inLoop _ hround) fun round hround => ?_
      exact L.pure (closed.whileLoop htest hround)
  | placement, .doLoop excerpt body condition, hexprs, hnodes, _ => by
      rw [Stmt.exprs] at hexprs
      rw [Stmt.nodes] at hnodes
      obtain ⟨hexprs, hcondition⟩ := List.forall_mem_append.1 hexprs
      obtain ⟨-, hnodes⟩ := List.forall_mem_cons.1 hnodes
      have hround := lowerStmt parts closed .single body hexprs hnodes (by simp [Adds])
      rw [Breakpoint.lowerStmt]
      refine L.bind (L.inLoop _ hround) fun round hround => ?_
      refine L.bind (parts.condition condition (hcondition _ List.mem_cons_self)) ?_
      intro test htest
      exact L.pure (closed.doLoop hround htest)
  | placement, .forLoop excerpt init condition update body, hexprs, hnodes, _ => by
      simp only [Stmt.exprs, List.forall_mem_append] at hexprs
      simp only [Stmt.nodes, List.forall_mem_append, List.forall_mem_cons] at hnodes
      obtain ⟨⟨⟨hinit, hcondition⟩, hupdate⟩, hbody⟩ := hexprs
      obtain ⟨-, hinitNodes, hbodyNodes⟩ := hnodes
      have htest := L.option condition fun e he =>
        parts.condition e (hcondition e (Option.mem_toList.2 he))
      have hnext := L.values update fun e he => parts.value e (hupdate e he)
      have hround := lowerStmt parts closed .single body hbody hbodyNodes (by simp [Adds])
      rw [Breakpoint.lowerStmt]
      refine L.inFrame (L.bindInList (lowerItems parts closed init hinit hinitNodes) ?_)
      intro first hfirst
      refine L.inList (L.bind htest fun test htest => L.bind hnext fun next hnext => ?_)
      refine L.bind (L.inLoop _ hround) fun round hround => ?_
      exact L.pure (closed.forLoop hfirst htest hnext hround)
  | placement, .breakTo excerpt label, hexprs, hnodes, _ => by
      rw [Stmt.nodes] at hnodes
      have hs := hnodes _ List.mem_cons_self
      rw [Breakpoint.lowerStmt]
      refine parts.unlabeled hs fun hplace => ?_
      exact L.bind (parts.checkBreak excerpt label hs) fun _ _ => L.pure (closed.breakTo hplace)
  | placement, .continueTo excerpt label, hexprs, hnodes, _ => by
      rw [Stmt.nodes] at hnodes
      have hs := hnodes _ List.mem_cons_self
      rw [Breakpoint.lowerStmt]
      refine parts.unlabeled hs fun hplace => ?_
      refine L.bind (parts.checkContinue excerpt label hs) fun _ _ => ?_
      exact L.pure (closed.continueTo hplace)
  | placement, .returnValue excerpt value, hexprs, hnodes, _ => by
      rw [Stmt.exprs] at hexprs
      rw [Stmt.nodes] at hnodes
      have hvalue := L.option value fun e he => parts.value e (hexprs e (Option.mem_toList.2 he))
      rw [Breakpoint.lowerStmt]
      refine parts.unlabeled (s := .returnValue excerpt value) (hnodes _ List.mem_cons_self)
        fun hplace => ?_
      exact L.bind hvalue fun t ht => L.pure (closed.returnValue hplace ht)
  | placement, .throwValue excerpt value, hexprs, hnodes, _ => by
      rw [Stmt.exprs] at hexprs
      rw [Stmt.nodes] at hnodes
      rw [Breakpoint.lowerStmt]
      refine parts.unlabeled (s := .throwValue excerpt value) (hnodes _ List.mem_cons_self)
        fun hplace => ?_
      refine L.bind (parts.value value (hexprs _ List.mem_cons_self)) fun t ht => ?_
      exact L.pure (closed.throwValue hplace ht)
  | placement, .labeled excerpt label body, hexprs, hnodes, _ => by
      rw [Stmt.exprs] at hexprs
      rw [Stmt.nodes] at hnodes
      obtain ⟨hs, hnodes⟩ := List.forall_mem_cons.1 hnodes
      have hbody := lowerStmt parts closed (.labeled label) body hexprs hnodes (by simp [Adds])
      rw [Breakpoint.lowerStmt]
      exact parts.unlabeled hs fun hplace => L.imp hbody fun t => closed.labeled hplace
  | placement, .unsupported excerpt kind, hexprs, hnodes, _ => by
      rw [Stmt.nodes] at hnodes
      have hs := hnodes _ List.mem_cons_self
      rw [Breakpoint.lowerStmt]
      exact parts.unlabeled hs fun _ => parts.refuse _ _ hs rfl _

theorem lowerElse (parts : q.Parts L E S) (closed : q.Closed) :
    ∀ s : Option Stmt, (∀ e ∈ Stmt.exprsOfOption s, E e) → (∀ n ∈ Stmt.nodesOfOption s, S n) →
      L.Holds (Option.Rel (q.stmt .single) s) (Breakpoint.lowerElse s)
  | none, _, _ => by
      rw [Breakpoint.lowerElse]
      exact L.pure .none
  | some s, hexprs, hnodes => by
      rw [Stmt.exprsOfOption] at hexprs
      rw [Stmt.nodesOfOption] at hnodes
      rw [Breakpoint.lowerElse]
      refine L.bind (lowerStmt parts closed .single s hexprs hnodes (by simp [Adds])) ?_
      exact fun t ht => L.pure (.some ht)

/-- The logic holds of a statement list. -/
theorem lowerItems (parts : q.Parts L E S) (closed : q.Closed) :
    ∀ stmts : List Stmt, (∀ e ∈ Stmt.exprsOfList stmts, E e) →
      (∀ n ∈ Stmt.nodesOfList stmts, S n) →
      L.HoldsInList (stmts.Forall₂ (q.stmt .listed)) (Breakpoint.lowerItems stmts)
  | [], _, _ => by
      rw [Breakpoint.lowerItems]
      exact L.inList (L.pure .nil)
  | s :: rest, hexprs, hnodes => by
      rw [Stmt.exprsOfList] at hexprs
      rw [Stmt.nodesOfList] at hnodes
      obtain ⟨hexprs, hrestExprs⟩ := List.forall_mem_append.1 hexprs
      obtain ⟨hnodes, hrestNodes⟩ := List.forall_mem_append.1 hnodes
      rw [Breakpoint.lowerItems]
      refine L.bindInList (parts.listed closed hexprs hnodes
        (lowerStmt parts closed .listed s hexprs hnodes)) fun t ht => ?_
      refine L.bindInList (lowerItems parts closed rest hrestExprs hrestNodes) ?_
      exact fun trees htrees => L.inList (L.pure (.cons ht htrees))

end

/-- A statement in a list or not, which may be a declaration in the first case. -/
theorem lowerStmt_inList (parts : q.Parts L E S) (closed : q.Closed) (placement : Placement)
    (s : Stmt) (hexprs : ∀ e ∈ s.exprs, E e) (hnodes : ∀ n ∈ s.nodes, S n) :
    L.HoldsInList (q.stmt placement s) (Breakpoint.lowerStmt placement s) := by
  have hstmt := parts.lowerStmt closed placement s hexprs hnodes
  by_cases hadds : s.Adds placement
  · obtain ⟨rfl, -⟩ := hadds
    exact parts.listed closed hexprs hnodes hstmt
  · exact L.inList (hstmt hadds)

end Parts

end Stmt.Spec

end Breakpoint
