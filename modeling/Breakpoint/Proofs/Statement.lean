import Breakpoint.Proofs.ExprRules
import Breakpoint.Proofs.StmtRules

/-!
Nodes of compiled statements. A compilation may keep a property of its context from the start to the
end; in particular it never leaves the site. A statement adds nodes of few kinds to those of its
expressions, so a property of nodes holds throughout a compiled statement if it holds of the added
nodes and throughout each compiled expression.
-/

namespace Breakpoint

/-- The property survives entering and leaving frames and jump targets. -/
class Context.Stable (I : Context → Prop) : Prop where
  enterFrame : ∀ c, I c → I c.enterFrame
  leaveFrame : ∀ c, I c → I c.leaveFrame
  enterLoop : ∀ label c, I c → I (c.enterLoop label)
  enterLabeled : ∀ label c, I c → I (c.enterLabeled label)
  leaveTarget : ∀ c, I c → I c.leaveTarget

instance Context.stable_site (site : Site) : Stable fun c => c.toSite = site where
  enterFrame _ := id
  leaveFrame _ := id
  enterLoop _ _ := id
  enterLabeled _ _ := id
  leaveTarget _ := id

namespace Lowering

variable {α β : Type} {I : Context → Prop} {P : α → Prop} {Q : β → Prop} {body : Lowering α}

/-- Started in a context that satisfies `I`, a compilation ends in such a context, and its result
satisfies `P`. -/
def Within (I : Context → Prop) (P : α → Prop) (body : Lowering α) : Prop :=
  ∀ c : Context, I c → Meets c (fun _ _ => True) (fun a c' => P a ∧ I c') body

theorem within_pure {a : α} (h : P a) : Within I P (pure a) := fun _ hc => meets_pure ⟨h, hc⟩

theorem within_refuse (excerpt : Excerpt) (cause : Cause) : Within I P (refuse excerpt cause) :=
  fun _ _ => meets_refuse trivial

theorem Within.imp {P' : α → Prop} (h : Within I P body) (hP : ∀ a, P a → P' a) :
    Within I P' body :=
  fun c hc => (h c hc).mono (fun _ _ => id) fun a _ ha => ⟨hP a ha.1, ha.2⟩

theorem Within.outcome {site : Site} (h : Within I P body) (hstart : I (Context.start site)) :
    Yields P (body.outcome site) :=
  ((h (Context.start site) hstart).mono (fun _ _ => id) fun _ _ => And.left).outcome

theorem Within.bind {k : α → Lowering β} (h : Within I P body) (hk : ∀ a, P a → Within I Q (k a)) :
    Within I Q (body >>= k) :=
  fun c hc => (h c hc).bind fun a c' ha => hk a ha.1 c' ha.2

theorem within_ofView {outcome : View → Except Fault α}
    (h : ∀ c : Context, I c → Yields P (outcome c.view)) : Within I P (ofView outcome) :=
  fun c hc => meets_ofView ((h c hc).imp fun _ ha => ⟨ha, hc⟩)

theorem Within.bracket {enter leave : Context → Context} (h : Within I P body)
    (henter : ∀ c, I c → I (enter c)) (hleave : ∀ c, I c → I (leave c)) :
    Within I P (bracket enter leave body) := by
  intro c hc
  refine meets_bracket ((h (enter c) (henter c hc)).mono (fun _ _ => id) ?_)
  intro a c' ha
  exact ⟨ha.1, hleave c' ha.2⟩

theorem Within.inFrame [Context.Stable I] (h : Within I P body) : Within I P (inFrame body) :=
  h.bracket Context.Stable.enterFrame Context.Stable.leaveFrame

theorem Within.inLoop [Context.Stable I] (label : Option String) (h : Within I P body) :
    Within I P (inLoop label body) :=
  h.bracket (Context.Stable.enterLoop label) Context.Stable.leaveTarget

theorem Within.inLabeled [Context.Stable I] (label : Option String) (h : Within I P body) :
    Within I P (inLabeled label body) := by
  cases label with
  | none => exact h
  | some label => exact h.bracket (Context.Stable.enterLabeled label) Context.Stable.leaveTarget

theorem within_jump (check : Jumps → Except Fault Unit) :
    Within I (fun _ => True) (jump check) := by
  intro c hc
  refine meets_jump ?_
  cases check c.jumps with
  | ok _ => exact ⟨trivial, hc⟩
  | error fault => trivial

/-- The logic of compilations that keep a property of their context. -/
def Logic.within (I : Context → Prop) [Context.Stable I] : Logic where
  Holds := Within I
  HoldsInList := Within I
  pure := within_pure
  bind := Within.bind
  inList := id
  bindInList := Within.bind
  inFrame := Within.inFrame
  inLoop := Within.inLoop
  inLabeled := Within.inLabeled

variable {site : Site}

/-- Started at the site, a compilation ends there, and its result satisfies `P`. -/
abbrev StaysAt (site : Site) (P : α → Prop) (body : Lowering α) : Prop :=
  Within (fun c => c.toSite = site) P body

theorem staysAt_ofView {outcome : View → Except Fault α}
    (h : ∀ v : View, v.toSite = site → Yields P (outcome v)) : StaysAt site P (ofView outcome) :=
  within_ofView fun c hc => h c.view hc

theorem staysAt_declare (entry : LocalEntry) (text : String) :
    StaysAt site (fun _ => True) (declare entry text) := by
  intro c hc
  refine meets_declare ?_
  cases c.arena.declare entry text with
  | ok arena => exact ⟨trivial, hc⟩
  | error fault => trivial

end Lowering

/-! ### Properties of all nodes -/

/-- The nodes that a statement which is no declaration adds to those of its parts; the conditions
among them satisfy `test`. -/
def Tree.OfControl (test : Tree → Prop) : Tree → Prop
  | .ifElse _ condition _ _ | .whileLoop _ condition _ | .doLoop _ _ condition
  | .forLoop _ _ (some condition) _ _ => test condition
  | .forLoop _ _ none _ _ | .pin _ | .block _ | .breakTo _ | .continueTo _ | .returnValue _
  | .throwValue _ | .fragment _ => True
  | _ => False

/-- The nodes that a statement adds to those of its expressions; the conditions among them satisfy
`test`. -/
def Tree.OfStatement (test : Tree → Prop) : Tree → Prop
  | .ifElse _ condition _ _ | .whileLoop _ condition _ | .doLoop _ _ condition
  | .forLoop _ _ (some condition) _ _ => test condition
  | .forLoop _ _ none _ _ | .pin _ | .block _ | .declare _ | .breakTo _ | .continueTo _
  | .returnValue _ | .throwValue _ | .fragment _ => True
  | .assign (.localVar _ .fragment) _ false | .localVar _ .fragment | .literal .. => True
  | _ => False

theorem Tree.OfControl.ofStatement {test : Tree → Prop} {t : Tree} (h : t.OfControl test) :
    t.OfStatement test := by
  cases t with
  | forLoop label init condition update body =>
      cases condition with
      | none => trivial
      | some condition => exact h
  | ifElse | whileLoop | doLoop => exact h
  | pin | block | breakTo | continueTo | returnValue | throwValue | fragment => trivial
  | _ => exact h.elim

/-- However a statement uses the expression, it compiles to nodes that satisfy `p`, and a condition
satisfies `test` too. -/
structure View.Admitted (v : View) (p test : Tree → Prop) (e : Expr) : Prop where
  value : Yields (Tree.Every p) (v.lower .value e)
  condition : Yields (fun t => t.Every p ∧ test t) (v.lowerCondition e)
  initial : ∀ ty, Yields (Tree.Every p) (v.lowerInitial ty e)

/-- An expression whose nodes bring only such nodes into a tree is admitted. -/
theorem View.admitted_of_covers {v : View} {p : Tree → Prop} {e : Expr}
    (h : e.Every (v.Covers (fun _ => True) p)) : v.Admitted p (fun _ => True) e where
  value := View.lower_meets .value e h
  condition := (View.lowerCondition_meets h).imp fun _ ht => ⟨ht, trivial⟩
  initial ty := View.lowerInitial_meets ty h

open Lowering

/-- Refusals and checks of jumps leave the context alone. -/
theorem Stmt.Spec.parts_within {q : Stmt.Spec} {I : Context → Prop} [Context.Stable I]
    {E : Expr → Prop} (hvalue : ∀ e, E e → Within I (q.value e) (ofView fun v => v.lower .value e))
    (hcondition : ∀ e, E e → Within I (q.condition e) (ofView fun v => v.lowerCondition e))
    (hentry : ∀ excerpt var, (∀ e ∈ var.init, E e) →
      Within I (q.entry var) (lowerVar excerpt var)) :
    q.Parts (Logic.within I) E fun _ => True where
  value := hvalue
  condition := hcondition
  entry excerpt _ _ var _ := hentry excerpt var
  refuse _ _ _ _ _ := within_refuse _ _
  stray _ _ _ _ := within_refuse _ _
  checkBreak _ _ _ := within_jump _
  checkContinue _ _ _ := within_jump _

section Every

open Breakpoint.Tree

variable {p test : Tree → Prop} {exprs : List Expr}

/-- All nodes satisfy `p`, and the conditions of statements satisfy `test`. -/
@[simps] def Stmt.Spec.every (p test : Tree → Prop) (entry : Declarator → LocalInit → Prop) :
    Stmt.Spec where
  value _ t := t.Every p
  condition _ t := t.Every p ∧ test t
  entry := entry
  stmt _ _ t := t.Every p

theorem every_of_control (hcontrol : ∀ t : Tree, t.OfControl test → p t) {t : Tree}
    (ht : t.OfControl test) (hchildren : ∀ s ∈ t.children, s.Every p) : t.Every p :=
  every_iff.2 ⟨hcontrol t ht, hchildren⟩

/-- A property of nodes that holds of what statements add to their parts is kept by all of them. -/
theorem Stmt.Spec.closed_every {entry : Declarator → LocalInit → Prop}
    (hcontrol : ∀ t : Tree, t.OfControl test → p t)
    (hdeclare : ∀ vars entries, List.Forall₂ entry vars entries → (Tree.declare entries).Every p) :
    (every p test entry).Closed where
  empty _ := every_of_control hcontrol trivial (by simp [children])
  expr _ ht := ht
  decl hentries := hdeclare _ _ hentries
  block _ hitems := by
    refine every_of_control hcontrol trivial fun t ht => ?_
    obtain ⟨item, hitem, rfl⟩ := List.mem_map.1 ht
    have hevery := forall_mem_right hitems (fun _ _ _ h => h) item hitem
    exact every_of_control hcontrol trivial (by simpa [children] using hevery)
  ifElse htest hfirst hsecond := by
    have hsecond := forall_mem_of_rel hsecond fun _ _ h => h
    refine every_of_control hcontrol htest.2 ?_
    simpa [children] using ⟨htest.1, hfirst, hsecond⟩
  whileLoop htest hround :=
    every_of_control hcontrol htest.2 (by simpa [children] using ⟨htest.1, hround⟩)
  doLoop hround htest :=
    every_of_control hcontrol htest.2 (by simpa [children] using ⟨hround, htest.1⟩)
  forLoop {_ _ _ _ _ _ _ _ test _} hfirst htest hnext hround := by
    have htest := forall_mem_of_rel htest fun _ _ h => h
    refine every_of_control hcontrol ?_ fun t ht => ?_
    · cases test with
      | none => trivial
      | some t => exact (htest t rfl).2
    · simp only [children, List.mem_append, Option.mem_toList, List.mem_singleton] at ht
      rcases ht with ((ht | ht) | ht) | rfl
      · exact forall_mem_right hfirst (fun _ _ _ h => h) t ht
      · exact (htest t ht).1
      · exact forall_mem_right hnext (fun _ _ _ h => h) t ht
      · exact hround
  breakTo _ := every_of_control hcontrol trivial (by simp [children])
  continueTo _ := every_of_control hcontrol trivial (by simp [children])
  returnValue _ ht := by
    have ht := forall_mem_of_rel ht fun _ _ h => h
    exact every_of_control hcontrol trivial fun t hmem => ht t (Option.mem_toList.1 hmem)
  throwValue _ ht := every_of_control hcontrol trivial (by simpa [children] using ht)
  labeled _ ht := ht

/-- Every view of the site admits the expressions. -/
def Site.Admitted (site : Site) (p test : Tree → Prop) (exprs : List Expr) : Prop :=
  ∀ e ∈ exprs, ∀ v : View, v.toSite = site → v.Admitted p test e

variable {site : Site}

theorem Site.Admitted.mono {exprs' : List Expr} (h : site.Admitted p test exprs)
    (hsub : exprs' ⊆ exprs) : site.Admitted p test exprs' :=
  fun e he => h e (hsub he)

/-- A node that a statement adds, above trees that satisfy `p` throughout. -/
theorem every_of_statement (hp : ∀ t : Tree, t.OfStatement test → p t) {t : Tree}
    (h : t.OfStatement test) (hchildren : ∀ s ∈ t.children, s.Every p) : t.Every p :=
  every_iff.2 ⟨hp t h, hchildren⟩

theorem lowerVar_every (hp : ∀ t : Tree, t.OfStatement test → p t) (excerpt : Excerpt)
    (var : Declarator) (hinit : site.Admitted p test var.init.toList) :
    StaysAt site (fun entry => ∀ t ∈ entry.trees, t.Every p) (lowerVar excerpt var) := by
  unfold lowerVar
  apply (staysAt_declare _ _).bind
  intro _ _
  have hzero : (Tree.literal (.zero var.decl.ty) var.decl.ty).Every p :=
    every_of_statement hp trivial (by simp [children])
  refine Within.bind (P := fun init => ∀ t ∈ init, t.Every p) (staysAt_ofView fun v hv => ?_) ?_
  · cases hvar : var.init with
    | none =>
        intro t ht
        cases ht
    | some e =>
        apply ((hinit e (by simp [hvar]) v hv).initial _).bind
        intro value hvalue
        have hplace : (Tree.localVar var.decl.name .fragment).Every p :=
          every_of_statement hp trivial (by simp [children])
        have hstore : (Tree.assign (.localVar var.decl.name .fragment) value false).Every p :=
          every_of_statement hp trivial (by simpa [children] using ⟨hplace, hvalue⟩)
        intro t ht
        cases ht
        exact hstore
  · intro init hinit
    refine within_pure ?_
    intro t ht
    rcases List.mem_cons.1 ht with rfl | ht
    · exact hzero
    · exact hinit t (Option.mem_toList.1 ht)

/-- The property holds of the smallest parts of statements at a site that admits their expressions.
-/
theorem Site.parts_every (site : Site) (hp : ∀ t : Tree, t.OfStatement test → p t) :
    (Stmt.Spec.every p test fun _ entry => ∀ t ∈ entry.trees, t.Every p).Parts
      (Logic.within fun c => c.toSite = site) (fun e => site.Admitted p test [e])
      fun _ => True := by
  refine Stmt.Spec.parts_within (fun e he => ?_) (fun e he => ?_) fun excerpt var hinit => ?_
  · exact staysAt_ofView fun v hv => (he e List.mem_cons_self v hv).value
  · exact staysAt_ofView fun v hv => (he e List.mem_cons_self v hv).condition
  · refine lowerVar_every hp excerpt var fun e he => ?_
    exact hinit e (Option.mem_toList.1 he) e List.mem_cons_self

theorem Site.closed_every (hp : ∀ t : Tree, t.OfStatement test → p t) :
    (Stmt.Spec.every p test fun _ entry => ∀ t ∈ entry.trees, t.Every p).Closed := by
  refine Stmt.Spec.closed_every (fun t ht => hp t ht.ofStatement) fun vars entries hentries => ?_
  refine every_of_statement hp trivial fun t ht => ?_
  obtain ⟨entry, hentry, ht⟩ := List.mem_flatMap.1 ht
  exact forall_mem_right hentries (fun _ _ _ h => h) entry hentry t ht

/-- A property of nodes that holds of what statements add and throughout the compiled expressions
of a statement holds throughout the compiled statement. -/
theorem lowerStmt_every (hp : ∀ t : Tree, t.OfStatement test → p t) (placement : Placement)
    (s : Stmt) (h : site.Admitted p test s.exprs) :
    StaysAt site (Every p) (lowerStmt placement s) :=
  (site.parts_every hp).lowerStmt_inList (Site.closed_every hp) placement s
    (fun e he => h.mono (by simpa using he)) fun _ _ => trivial

theorem lowerFragment_every (hp : ∀ t : Tree, t.OfStatement test → p t) (stmts : List Stmt)
    (h : site.Admitted p test (Stmt.exprsOfList stmts)) :
    StaysAt site (Every p) (lowerFragment stmts) := by
  have hitems := (site.parts_every hp).lowerItems (Site.closed_every hp) stmts
    (fun e he => h.mono (by simpa using he)) fun _ _ => trivial
  refine .bracket (Within.bind hitems fun items hitems => within_pure ?_) (fun _ => id) fun _ => id
  exact every_of_statement hp trivial (forall_mem_right hitems fun _ _ _ h => h)

end Every

end Breakpoint
