import Breakpoint.Proofs.Blame
import Mathlib.Logic.Relation

/-!
What is compiled is supported throughout. Compilation leaves some expressions of the source alone
because their values are not needed, such as the qualifier of a static member or of a local. All
other expressions are evaluated. None of them, and no statement, is of a kind that has no tree: a
source with such a construct in an evaluated position is refused, whatever stands around it.
-/

namespace Breakpoint

/-- An expression where it stands: as the qualifier of a member, possibly in parentheses, or for its
value. -/
structure Occurrence where
  expr : Expr
  qualifies : Bool

/-- An expression that stands for its value. -/
abbrev Expr.asValue (e : Expr) : Occurrence := ⟨e, false⟩

/-- An expression that stands in front of a member. -/
abbrev Expr.asQualifier (e : Expr) : Occurrence := ⟨e, true⟩

/-- A name that is bound like this does not need the qualifier `q`. -/
def Decl.skips (q : Expr) : Decl → Bool
  | .field d => d.modifiers.isStatic || q.isTypeName
  | .localVar _ | .type _ | .method _ => true
  | .unresolved => false

/-- The class is known to be the inner class of another one. -/
def Hierarchy.isInner (h : Hierarchy) (c : ClassId) : Bool :=
  (h.get? c).any fun info => info.nesting == .inner && info.outer.isSome

namespace Occurrence

variable {h : Hierarchy} {o : Occurrence}

/-- The expressions directly below an expression that are evaluated with it. The array in front of
its length always is; other qualifiers are not if the name or the method does not need them, an
outer instance only is for an inner class, and a dimension only is if no brace list follows. -/
def parts (h : Hierarchy) (o : Occurrence) : List Occurrence :=
  match o.expr with
  | .literal .. | .thisRef .. | .superRef .. | .classLiteral .. | .lambda _ | .methodRef _
  | .name _ none _ _ => []
  | .name _ (some q) name decl =>
    if View.isLength q name then [q.asValue] else if decl.skips q then [] else [q.asQualifier]
  | .paren _ inner => [⟨inner, o.qualifies⟩]
  | .chain _ operands _ => operands.map Expr.asValue
  | .unary _ _ operand | .step _ _ _ operand | .instanceOf _ operand _ | .cast _ _ operand =>
    [operand.asValue]
  | .assign _ _ target value => [target.asValue, value.asValue]
  | .conditional _ condition thenValue elseValue =>
    [condition.asValue, thenValue.asValue, elseValue.asValue]
  | .index _ array position => [array.asValue, position.asValue]
  | .call _ qualifier _ method args =>
    (if method.any fun m => m.modifiers.isStatic then []
      else qualifier.toList.map Expr.asQualifier) ++ args.map Expr.asValue
  | .newInstance _ c _ outer args _ =>
    (if h.isInner c then outer.toList.map Expr.asValue else []) ++ args.map Expr.asValue
  | .newArray _ _ (some init) => [init.asValue]
  | .newArray _ dims none => dims.map Expr.asValue
  | .braces _ elements => elements.map Expr.asValue

/-- The expressions that are evaluated with an expression, at any depth. -/
def Evaluates (h : Hierarchy) : Occurrence → Occurrence → Prop :=
  Relation.ReflTransGen fun o p => p ∈ o.parts h

/-- There is a tree for expressions of this kind. -/
def Supported (o : Occurrence) : Prop :=
  match o.expr with
  | .lambda _ | .methodRef _ | .assign _ (.compound _) _ _ => False
  | .newInstance _ _ _ _ _ anonymous => anonymous = false
  | .newArray _ dims init => dims.length ≤ 1 ∧ (dims ≠ [] ∨ init.isSome)
  | .chain _ operands ops => operands.length = ops.length + 1
  | .superRef .. => o.qualifies
  | _ => True

/-- Everything that is evaluated with the expression is supported. -/
def Accepted (h : Hierarchy) (o : Occurrence) : Prop := ∀ p, o.Evaluates h p → p.Supported

theorem accepted_iff : o.Accepted h ↔ o.Supported ∧ ∀ p ∈ o.parts h, p.Accepted h := by
  constructor
  · intro haccepted
    exact ⟨haccepted o .refl, fun p hp n hn => haccepted n (.head hp hn)⟩
  · rintro ⟨hsupported, hparts⟩ n hn
    rcases Relation.ReflTransGen.cases_head hn with rfl | ⟨p, hp, hpn⟩
    · exact hsupported
    · exact hparts p hp n hpn

/-- Expressions without evaluated parts. -/
theorem accepted_of_parts_eq_nil (hsupported : o.Supported) (hparts : o.parts h = []) :
    o.Accepted h :=
  accepted_iff.2 ⟨hsupported, by simp [hparts]⟩

end Occurrence

open Occurrence

/-- In the role of a receiver an expression stands in front of a member. -/
@[simp] def Role.qualifies : Role → Bool
  | .receiver => true
  | .value | .target | .initializer _ => false

/-- The relation between expressions that are accepted in their roles and any trees. -/
abbrev Approved (h : Hierarchy) (role : Role) (e : Expr) (_ : Tree) : Prop :=
  Accepted h ⟨e, role.qualifies⟩

theorem Approved.stored {h : Hierarchy} {e : Expr} {ty : Ty} {t : Tree}
    (ht : e.Stores (Approved h) ty t) : e.asValue.Accepted h := by
  cases ht with
  | braces he => exact he
  | value hx => exact hx.tree

theorem yields_of {α : Type} {P : Prop} (h : P) (y : Except Fault α) : Yields (fun _ => P) y :=
  (yields_any y).imp fun _ _ => h

theorem Hierarchy.isSome_outerOfInner? (v : View) (c : ClassId) :
    (v.outerOfInner? c).isSome = v.hierarchy.isInner c := by
  unfold View.outerOfInner? isInner
  cases v.hierarchy.get? c with
  | none => rfl
  | some info =>
      by_cases hinner : info.nesting = .inner
      · simp [hinner]
      · simp [hinner]

namespace View

variable {v : View}

/-- A name that needs its qualifier compiles only if the qualifier does. -/
theorem qualifiedName_yields {P : Prop} {object : Except Fault Tree} (note : Note) (name : String)
    (q : Expr) (decl : Decl) (h : Yields (fun _ => P) object) :
    Yields (fun _ => decl.skips q = false → P)
      (v.qualifiedName note name q.isTypeName object decl) := by
  cases decl with
  | field d =>
      unfold qualifiedName
      dsimp only
      split
      next hskips =>
        refine yields_of (fun hneeds => ?_) _
        rw [Decl.skips, hskips] at hneeds
        cases hneeds
      next => exact h.bind fun _ hP => yields_of (fun _ => hP) _
  | unresolved =>
      unfold qualifiedName
      dsimp only
      split
      · exact h.bind fun _ hP => fun _ => hP
      · trivial
  | localVar d => exact yields_of (fun hneeds => by cases hneeds) _
  | method m => exact yields_of (fun hneeds => by cases hneeds) _
  | type ty => exact yields_of (fun hneeds => by cases hneeds) _

theorem Chains.accepted {h : Hierarchy} {start : Span} {left whole : Operand} {rest : List Expr}
    {ops : List BinaryOp} (hchains : v.Chains (Approved h) start left rest ops whole) :
    rest.length = ops.length ∧ ∀ e ∈ rest, e.asValue.Accepted h := by
  induction hchains with
  | nil => exact ⟨rfl, nofun⟩
  | cons hright _ _ ih => exact ⟨congrArg (· + 1) ih.1, List.forall_mem_cons.2 ⟨hright.tree, ih.2⟩⟩

theorem arguments_accepted {h : Hierarchy} {args : List Expr} {operands : List Operand}
    (hargs : args.Forall₂ (Expr.Gives (Approved h)) operands) :
    ∀ e ∈ args, e.asValue.Accepted h :=
  forall_mem_right hargs.flip fun _ _ _ hx => hx.tree

/-- Each form of expression that compiles is supported if its evaluated parts are. -/
theorem rules_approved (v : View) : v.Rules (Approved v.hierarchy) where
  literal _ := accepted_of_parts_eq_nil trivial rfl
  simpleName _ _ := accepted_of_parts_eq_nil trivial rfl
  length {_ _ q _ _ _} _ hlength hq _ := by
    have hq : q.asValue.Accepted v.hierarchy := hq
    exact accepted_iff.2 ⟨trivial, by simpa [parts, hlength] using hq⟩
  qualifiedName {_ note q name decl _} _ hlength hq ht := by
    have hneeded : decl.skips q = false → q.asQualifier.Accepted v.hierarchy :=
      (qualifiedName_yields note name q decl hq).of_ok ht
    refine accepted_iff.2 ⟨trivial, ?_⟩
    cases hskips : decl.skips q with
    | true => simp [parts, hlength, hskips]
    | false => simpa [parts, hlength, hskips] using hneeded hskips
  thisRef _ _ := accepted_of_parts_eq_nil trivial rfl
  superRef _ := accepted_of_parts_eq_nil rfl rfl
  classLiteral _ := accepted_of_parts_eq_nil trivial rfl
  paren _ hinner := accepted_iff.2 ⟨trivial, List.forall_mem_singleton.2 hinner⟩
  chain _ hfirst hrest := by
    obtain ⟨hlength, hrest⟩ := hrest.accepted
    refine accepted_iff.2 ⟨by simp [Supported, hlength], ?_⟩
    simpa [parts] using ⟨hfirst.tree, hrest⟩
  unary _ hx _ := accepted_iff.2 ⟨trivial, List.forall_mem_singleton.2 hx.tree⟩
  step _ _ _ hplace := accepted_iff.2 ⟨trivial, List.forall_mem_singleton.2 hplace⟩
  assign _ _ hplace hx := accepted_iff.2 ⟨trivial, by simpa [parts] using ⟨hplace, hx.tree⟩⟩
  conditional _ _ hc _ hx hy :=
    accepted_iff.2 ⟨trivial, by simpa [parts] using ⟨hc.tree, hx.tree, hy.tree⟩⟩
  instanceOf _ hx _ := accepted_iff.2 ⟨trivial, List.forall_mem_singleton.2 hx.tree⟩
  cast _ hx := accepted_iff.2 ⟨trivial, List.forall_mem_singleton.2 hx.tree⟩
  index _ ha _ hx _ := accepted_iff.2 ⟨trivial, by simpa [parts] using ⟨ha.tree, hx.tree⟩⟩
  call {_ _ _ _ m _ _ _ _ _} _ hreceiver _ hargs _ := by
    have hargs := arguments_accepted hargs
    refine accepted_iff.2 ⟨trivial, ?_⟩
    cases hstatic : m.modifiers.isStatic with
    | true => simpa [parts, hstatic] using hargs
    | false =>
        rw [hstatic] at hreceiver
        cases hreceiver with
        | absent => simpa [parts, hstatic] using hargs
        | given hq => simpa [parts, hstatic, or_imp, forall_and] using ⟨hq, hargs⟩
  newInstance {_ _ c _ _ _ _ _ _} _ henclosing hargs _ := by
    have hargs := arguments_accepted hargs
    have hinner := Hierarchy.isSome_outerOfInner? v c
    refine accepted_iff.2 ⟨rfl, ?_⟩
    generalize v.outerOfInner? c = outerClass at henclosing hinner
    cases henclosing with
    | unneeded => simpa [parts, ← hinner] using hargs
    | given hq => simpa [parts, ← hinner, or_imp, forall_and] using ⟨hq, hargs⟩
    | nearest _ => simpa [parts, ← hinner] using hargs
  filledArray _ hty hinit := by
    obtain ⟨-, -, hdims⟩ := Yields.of_ok (createdTy_meets fun _ _ => trivial) hty
    exact accepted_iff.2 ⟨⟨hdims, .inr rfl⟩, List.forall_mem_singleton.2 hinit⟩
  emptyArray {_ _ _ rest _ _ _} _ hty hx _ := by
    obtain ⟨-, -, hdims⟩ := Yields.of_ok (createdTy_meets fun _ _ => trivial) hty
    have hrest : rest = [] := List.eq_nil_of_length_eq_zero (by omega)
    refine accepted_iff.2 ⟨⟨hdims, .inl (List.cons_ne_nil _ _)⟩, ?_⟩
    rw [hrest]
    exact List.forall_mem_singleton.2 hx.tree
  braces _ _ htrees := by
    have helements := forall_mem_right htrees.flip fun _ _ _ ht => Approved.stored ht
    exact accepted_iff.2 ⟨trivial, by simpa [parts] using helements⟩

/-- An expression that compiles is supported in all its evaluated positions. -/
theorem lower_accepted (e : Expr) :
    Yields (fun _ => e.asValue.Accepted v.hierarchy) (v.lower .value e) :=
  v.rules_approved.yields .value e

theorem lowerCondition_accepted (e : Expr) :
    Yields (fun _ => e.asValue.Accepted v.hierarchy) (v.lowerCondition e) :=
  (v.rules_approved.operand e).bind fun _ hx => yields_of hx.tree _

end View

/-! ### Statements -/

/-- Whether the statement can stand there: a declaration needs a list around it, and only loops and
choices can have a label. -/
def Placement.suits : Placement → Stmt → Bool
  | .listed, _ => true
  | .single, .decl .. => false
  | .single, _ => true
  | .labeled _, .ifElse .. | .labeled _, .whileLoop .. | .labeled _, .doLoop ..
  | .labeled _, .forLoop .. => true
  | .labeled _, _ => false

/-- There is a tree for statements of this kind. -/
def Stmt.Supported : Stmt → Prop
  | .unsupported .. => False
  | .labeled _ label body => (Placement.labeled label).suits body
  | .ifElse _ _ thenBranch elseBranch =>
    Placement.single.suits thenBranch ∧ ∀ s ∈ elseBranch, Placement.single.suits s
  | .whileLoop _ _ body | .doLoop _ body _ | .forLoop _ _ _ _ body => Placement.single.suits body
  | _ => True

/-- What is evaluated in these statements is supported, and so are the statements. -/
structure Accepts (h : Hierarchy) (exprs : List Expr) (stmts : List Stmt) : Prop where
  exprs : ∀ e ∈ exprs, e.asValue.Accepted h
  stmts : ∀ s ∈ stmts, s.Supported

section Statements

open Lowering

variable {site : Site}

/-- A variable that is declared is supported in its initial value. -/
theorem lowerVar_accepted (excerpt : Excerpt) (var : Declarator) :
    StaysAt site (fun _ => ∀ e ∈ var.init, e.asValue.Accepted site.hierarchy)
      (lowerVar excerpt var) := by
  refine (staysAt_declare _ _).bind fun _ _ => ?_
  refine Within.bind (staysAt_ofView fun v hv => ?_) fun _ hinit => within_pure hinit
  subst hv
  cases hinit : var.init with
  | none => exact yields_of (by simp) _
  | some e =>
      refine (v.rules_approved.initial var.decl.ty e).bind fun _ he => yields_of ?_ _
      simpa using Approved.stored he

/-- Every statement is supported in all its evaluated positions, and can stand where it does. -/
@[simps] def Stmt.Spec.accepted (h : Hierarchy) : Stmt.Spec where
  value e _ := e.asValue.Accepted h
  condition e _ := e.asValue.Accepted h
  entry var _ := ∀ e ∈ var.init, e.asValue.Accepted h
  stmt placement s _ := Accepts h s.exprs s.nodes ∧ placement.suits s

/-- Only loops and choices can have a label. -/
theorem Placement.suits_of_unlabeled {placement : Placement} {s : Stmt}
    (hplace : placement.label? = none) (hs : Placement.single.suits s) : placement.suits s := by
  cases placement with
  | listed => rfl
  | single => exact hs
  | labeled label => cases hplace

theorem Placement.suits_of_labels {placement : Placement} {s : Stmt}
    (hs : (Placement.labeled "").suits s) : placement.suits s := by
  cases placement with
  | listed => rfl
  | single => cases s <;> first | rfl | cases hs
  | labeled label => cases s <;> first | rfl | cases hs

theorem Stmt.Spec.closed_accepted {h : Hierarchy} : (accepted h).Closed where
  empty hplace := by
    refine ⟨?_, Placement.suits_of_unlabeled hplace rfl⟩
    rw [Stmt.exprs, Stmt.nodes]
    exact ⟨nofun, List.forall_mem_singleton.2 trivial⟩
  expr hplace he := by
    refine ⟨?_, Placement.suits_of_unlabeled hplace rfl⟩
    rw [Stmt.exprs, Stmt.nodes]
    exact ⟨List.forall_mem_singleton.2 he, List.forall_mem_singleton.2 trivial⟩
  decl hentries := by
    have hvars := forall_mem_right hentries.flip fun _ _ _ h => h
    refine ⟨?_, rfl⟩
    rw [Stmt.exprs, Stmt.nodes]
    refine ⟨fun e he => ?_, List.forall_mem_singleton.2 trivial⟩
    obtain ⟨var, hvar, he⟩ := List.mem_filterMap.1 he
    exact hvars var hvar e he
  block hplace hitems := by
    have hitems := forall_mem_right hitems.flip fun _ _ _ h => h
    refine ⟨?_, Placement.suits_of_unlabeled hplace rfl⟩
    rw [Stmt.exprs, Stmt.nodes]
    refine ⟨Stmt.forall_exprsOfList.2 fun s hs => (hitems s hs).1.exprs, ?_⟩
    exact List.forall_mem_cons.2
      ⟨trivial, Stmt.forall_nodesOfList.2 fun s hs => (hitems s hs).1.stmts⟩
  ifElse hcondition hthen helse := by
    have helse := forall_mem_of_rel (rel_flip helse) fun _ _ h => h
    refine ⟨?_, Placement.suits_of_labels rfl⟩
    rw [Stmt.exprs, Stmt.nodes]
    constructor
    · refine List.forall_mem_append.2 ⟨List.forall_mem_cons.2 ⟨hcondition, hthen.1.exprs⟩, ?_⟩
      exact Stmt.forall_exprsOfOption.2 fun s hs => (helse s hs).1.exprs
    · refine List.forall_mem_cons.2 ⟨⟨hthen.2, fun s hs => (helse s hs).2⟩, ?_⟩
      refine List.forall_mem_append.2 ⟨hthen.1.stmts, ?_⟩
      exact Stmt.forall_nodesOfOption.2 fun s hs => (helse s hs).1.stmts
  whileLoop hcondition hbody := by
    refine ⟨?_, Placement.suits_of_labels rfl⟩
    rw [Stmt.exprs, Stmt.nodes]
    exact ⟨List.forall_mem_cons.2 ⟨hcondition, hbody.1.exprs⟩,
      List.forall_mem_cons.2 ⟨hbody.2, hbody.1.stmts⟩⟩
  doLoop hbody hcondition := by
    refine ⟨?_, Placement.suits_of_labels rfl⟩
    rw [Stmt.exprs, Stmt.nodes]
    exact ⟨List.forall_mem_append.2 ⟨hbody.1.exprs, List.forall_mem_singleton.2 hcondition⟩,
      List.forall_mem_cons.2 ⟨hbody.2, hbody.1.stmts⟩⟩
  forLoop hinit hcondition hupdate hbody := by
    have hinit := forall_mem_right hinit.flip fun _ _ _ h => h
    have hcondition := forall_mem_of_rel (rel_flip hcondition) fun _ _ h => h
    have hupdate := forall_mem_right hupdate.flip fun _ _ _ h => h
    refine ⟨?_, Placement.suits_of_labels rfl⟩
    rw [Stmt.exprs, Stmt.nodes]
    constructor
    · simp only [List.forall_mem_append, Option.mem_toList]
      refine ⟨⟨⟨?_, hcondition⟩, hupdate⟩, hbody.1.exprs⟩
      exact Stmt.forall_exprsOfList.2 fun s hs => (hinit s hs).1.exprs
    · refine List.forall_mem_cons.2 ⟨hbody.2, List.forall_mem_append.2 ⟨?_, hbody.1.stmts⟩⟩
      exact Stmt.forall_nodesOfList.2 fun s hs => (hinit s hs).1.stmts
  breakTo hplace := by
    refine ⟨?_, Placement.suits_of_unlabeled hplace rfl⟩
    rw [Stmt.exprs, Stmt.nodes]
    exact ⟨nofun, List.forall_mem_singleton.2 trivial⟩
  continueTo hplace := by
    refine ⟨?_, Placement.suits_of_unlabeled hplace rfl⟩
    rw [Stmt.exprs, Stmt.nodes]
    exact ⟨nofun, List.forall_mem_singleton.2 trivial⟩
  returnValue hplace hvalue := by
    have hvalue := forall_mem_of_rel (rel_flip hvalue) fun _ _ h => h
    refine ⟨?_, Placement.suits_of_unlabeled hplace rfl⟩
    rw [Stmt.exprs, Stmt.nodes]
    exact ⟨fun e he => hvalue e (Option.mem_toList.1 he), List.forall_mem_singleton.2 trivial⟩
  throwValue hplace hvalue := by
    refine ⟨?_, Placement.suits_of_unlabeled hplace rfl⟩
    rw [Stmt.exprs, Stmt.nodes]
    exact ⟨List.forall_mem_singleton.2 hvalue, List.forall_mem_singleton.2 trivial⟩
  labeled hplace hbody := by
    refine ⟨?_, Placement.suits_of_unlabeled hplace rfl⟩
    rw [Stmt.exprs, Stmt.nodes]
    exact ⟨hbody.1.exprs, List.forall_mem_cons.2 ⟨hbody.2, hbody.1.stmts⟩⟩

theorem Site.parts_accepted (site : Site) : (Stmt.Spec.accepted site.hierarchy).Parts
    (Logic.within fun c => c.toSite = site) (fun _ => True) fun _ => True := by
  refine Stmt.Spec.parts_within (fun e _ => ?_) (fun e _ => ?_) fun excerpt var _ => ?_
  · exact staysAt_ofView fun v hv => hv ▸ View.lower_accepted e
  · exact staysAt_ofView fun v hv => hv ▸ View.lowerCondition_accepted e
  · exact lowerVar_accepted excerpt var

/-- A statement that compiles is supported in all its evaluated positions. -/
theorem lowerStmt_accepts (s : Stmt) :
    StaysAt site (fun _ => Accepts site.hierarchy s.exprs s.nodes) (lowerStmt .single s) := by
  have hstmt := site.parts_accepted.lowerStmt Stmt.Spec.closed_accepted .single s
    (fun _ _ => trivial) (fun _ _ => trivial) (by simp [Stmt.Adds])
  exact Within.imp hstmt fun _ => And.left

theorem lowerFragment_accepts (stmts : List Stmt) :
    StaysAt site (fun _ => Accepts site.hierarchy (Stmt.exprsOfList stmts) (Stmt.nodesOfList stmts))
      (lowerFragment stmts) := by
  have hitems := site.parts_accepted.lowerItems Stmt.Spec.closed_accepted stmts
    (fun _ _ => trivial) fun _ _ => trivial
  refine .bracket (Within.bind hitems fun _ hitems => within_pure ?_) (fun _ => id) fun _ => id
  have haccepts := forall_mem_right hitems.flip fun _ _ _ h => h
  exact ⟨Stmt.forall_exprsOfList.2 fun s hs => (haccepts s hs).1.exprs,
    Stmt.forall_nodesOfList.2 fun s hs => (haccepts s hs).1.stmts⟩

end Statements

/-- Unsupported constructs are never compiled away. If a source compiles, every expression in it
that is evaluated is of a kind that has a tree, and so is every statement. -/
theorem compiled_source_supported (site : Site) (source : Source) (t : Tree)
    (h : source.compile site = .ok t) :
    (∀ e ∈ source.exprs, ∀ o, e.asValue.Evaluates site.hierarchy o → o.Supported) ∧
      ∀ s ∈ source.stmts, s.Supported := by
  cases source with
  | expr e =>
      have haccepted := (View.lower_accepted e).of_ok h
      exact ⟨List.forall_mem_singleton.2 haccepted, by simp [Source.stmts]⟩
  | stmt s =>
      have haccepts := ((lowerStmt_accepts s).outcome rfl).of_ok h
      exact ⟨haccepts.exprs, haccepts.stmts⟩
  | fragment stmts =>
      have haccepts := ((lowerFragment_accepts stmts).outcome rfl).of_ok h
      exact ⟨haccepts.exprs, haccepts.stmts⟩

/-- The sum of two constants. -/
def Expr.sum : Expr :=
  .chain { ty? := some .int } [.literal { ty? := some .int } (.int 1),
    .literal { ty? := some .int } (.int 2)] [.add]

/-- An array of one element, with a dimension in front of the brace list that is never needed. -/
def Expr.sized : Expr :=
  .newArray { ty? := some (.array (.prim .int) 1) } [.lambda {}] (some (.braces {} [.sum]))

/-- The dimension is not evaluated, so it may be a lambda expression; the sum is, and has to be a
proper chain. On its own the lambda expression is refused. -/
theorem compiled_source_supported_sized :
    let site : Site := ⟨.empty, ⟨[⟨1⟩], .onInstance⟩, {}⟩
    let source : Source := .fragment [.expr {} .sized]
    let sum : Tree := .binary .add (.literal (.int 1) .int) (.literal (.int 2) .int) .int
    source.compile site = .ok (.fragment [.newArray (.array (.prim .int) 1) none (some [sum])]) ∧
      .lambda {} ∈ Expr.sized.nodes ∧
      (Expr.sized.asValue.Evaluates site.hierarchy Expr.sum.asValue ∧
        Expr.sum.asValue.Supported) ∧
      (∀ o, Expr.sized.asValue.Evaluates site.hierarchy o → o.expr ≠ .lambda {}) ∧
      ∃ fault, compileExpr site (.lambda {}) = .error fault := by
  intro site source sum
  have hcompile : source.compile site =
      .ok (.fragment [.newArray (.array (.prim .int) 1) none (some [sum])]) := rfl
  have hsupported := (compiled_source_supported site source _ hcompile).1 .sized List.mem_cons_self
  have hsum : Expr.sized.asValue.Evaluates site.hierarchy Expr.sum.asValue :=
    .head List.mem_cons_self (.single List.mem_cons_self)
  refine ⟨hcompile, by simp [Expr.sized, Expr.nodes, Expr.nodesOfList],
    ⟨hsum, hsupported _ hsum⟩, fun o ho hlambda => ?_, _, rfl⟩
  have hnone := hsupported o ho
  rw [Occurrence.Supported, hlambda] at hnone
  exact hnone

end Breakpoint
