import Breakpoint.Proofs.Copies
import Breakpoint.Proofs.Outcome

/-!
Two statements in lockstep. A statement and a copy of it are compiled side by side, from contexts
that are related. Both runs enter and leave frames and targets together and declare their locals
together, so the contexts stay related, and the runs come to corresponding outcomes if the
expressions do.
-/

namespace Breakpoint

namespace Lowering

variable {α β γ δ : Type}

/-- The outcome of a compilation, with the context that a success leaves behind. -/
def result (body : Lowering α) (c : Context) : Except Fault (α × Context) :=
  (body.run.run c).1.map fun a => (a, (body.run.run c).2)

theorem outcome_eq (body : Lowering α) (site : Site) :
    body.outcome site = (body.result (Context.start site)).map Prod.fst := by
  unfold outcome result
  cases (body.run.run (Context.start site)).1 <;> rfl

theorem result_bind (body : Lowering α) (k : α → Lowering β) (c : Context) :
    (body >>= k).result c = body.result c >>= fun x => (k x.1).result x.2 := by
  unfold result
  rw [run_bind]
  rcases body.run.run c with ⟨_ | _, _⟩ <;> rfl

theorem result_bracket (enter leave : Context → Context) (body : Lowering α) (c : Context) :
    (bracket enter leave body).result c =
      (body.result (enter c)).map fun x => (x.1, leave x.2) := by
  change (body.run.run (enter c)).1.map (fun a => (a, leave (body.run.run (enter c)).2)) = _
  unfold result
  cases (body.run.run (enter c)).1 <;> rfl

theorem result_ofView (outcome : View → Except Fault α) (c : Context) :
    (ofView outcome).result c = (outcome c.view).map fun a => (a, c) := rfl

theorem result_jump (check : Jumps → Except Fault Unit) (c : Context) :
    (jump check).result c = (check c.jumps).map fun a => (a, c) := rfl

theorem result_declare (entry : LocalEntry) (text : String) (c : Context) :
    (declare entry text).result c =
      (c.arena.declare entry text).map fun arena => ((), { c with arena }) := by
  unfold result
  rw [run_declare]
  cases c.arena.declare entry text <;> rfl

/-- Started in contexts that are related by `C`, the compilations come to corresponding outcomes,
and where both succeed the contexts that they leave behind are related. -/
def Lockstep (L : Leeway) (C : Context → Context → Prop) (R : α → β → Prop) (body : Lowering α)
    (body' : Lowering β) : Prop :=
  ∀ c d : Context, C c d →
    Corresponds L (fun x y => R x.1 y.1 ∧ C x.2 y.2) (body.result c) (body'.result d)

variable {L : Leeway} {C : Context → Context → Prop} {R : α → β → Prop} {Q : γ → δ → Prop}
  {body : Lowering α} {body' : Lowering β}

theorem Lockstep.outcome {site site' : Site} (h : Lockstep L C R body body')
    (hstart : C (.start site) (.start site')) :
    Corresponds L R (body.outcome site) (body'.outcome site') := by
  rw [outcome_eq, outcome_eq]
  exact (h _ _ hstart).map fun _ _ => And.left

theorem lockstep_pure {a : α} {b : β} (h : R a b) : Lockstep L C R (pure a) (pure b) :=
  fun _ _ hcd => ⟨h, hcd⟩

theorem lockstep_refuse {excerpt excerpt' : Excerpt} {cause cause' : Cause}
    (h : L.alike ⟨cause, excerpt⟩ ⟨cause', excerpt'⟩) :
    Lockstep L C R (refuse excerpt cause) (refuse excerpt' cause') :=
  fun _ _ _ => .inl h

theorem Lockstep.bind {k : α → Lowering γ} {k' : β → Lowering δ} (h : Lockstep L C R body body')
    (hk : ∀ a b, R a b → Lockstep L C Q (k a) (k' b)) :
    Lockstep L C Q (body >>= k) (body' >>= k') := by
  intro c d hcd
  rw [result_bind, result_bind]
  exact (h c d hcd).bind fun x y hxy => hk x.1 y.1 hxy.1 x.2 y.2 hxy.2

theorem lockstep_ofView {f : View → Except Fault α} {g : View → Except Fault β}
    (h : ∀ c d, C c d → Corresponds L R (f c.view) (g d.view)) :
    Lockstep L C R (ofView f) (ofView g) := by
  intro c d hcd
  rw [result_ofView, result_ofView]
  exact (h c d hcd).map fun _ _ hR => ⟨hR, hcd⟩

theorem lockstep_jump {check check' : Jumps → Except Fault Unit}
    (h : ∀ c d, C c d → Corresponds L (fun _ _ => True) (check c.jumps) (check' d.jumps)) :
    Lockstep L C (fun _ _ => True) (jump check) (jump check') := by
  intro c d hcd
  rw [result_jump, result_jump]
  exact (h c d hcd).map fun _ _ _ => ⟨trivial, hcd⟩

theorem lockstep_declare {entry entry' : LocalEntry} {text text' : String}
    (h : ∀ c d, C c d → Corresponds L (fun a b => C { c with arena := a } { d with arena := b })
      (c.arena.declare entry text) (d.arena.declare entry' text')) :
    Lockstep L C (fun _ _ => True) (declare entry text) (declare entry' text') := by
  intro c d hcd
  rw [result_declare, result_declare]
  exact (h c d hcd).map fun _ _ hscopes => ⟨trivial, hscopes⟩

theorem Lockstep.bracket {enter leave enter' leave' : Context → Context}
    (h : Lockstep L C R body body') (henter : ∀ c d, C c d → C (enter c) (enter' d))
    (hleave : ∀ c d, C c d → C (leave c) (leave' d)) :
    Lockstep L C R (bracket enter leave body) (bracket enter' leave' body') := by
  intro c d hcd
  rw [result_bracket, result_bracket]
  exact (h _ _ (henter c d hcd)).map fun x y hxy => ⟨hxy.1, hleave x.2 y.2 hxy.2⟩

end Lowering

open Lowering

/-- However a statement uses the two expressions, they come to corresponding outcomes in related
contexts. -/
structure Expr.Matches (L : Leeway) (C : Context → Context → Prop) (R : Tree → Tree → Prop)
    (e e' : Expr) : Prop where
  value : ∀ c d, C c d → Corresponds L R (c.view.lower .value e) (d.view.lower .value e')
  condition : ∀ c d, C c d → Corresponds L R (c.view.lowerCondition e) (d.view.lowerCondition e')
  initial : ∀ c d, C c d → ∀ ty,
    Corresponds L R (c.view.lowerInitial ty e) (d.view.lowerInitial ty e')

/-- A way to copy statements form by form. The expressions in them, the variables that they declare,
their excerpts and their labels may be replaced in the copy. -/
structure Stmt.Copier where
  copy : Stmt → Stmt
  expr : Expr → Expr
  var : Declarator → Declarator
  excerpt : Excerpt → Excerpt := id
  label : String → String := id
  copy_empty : ∀ x : Excerpt, copy (.empty x) = .empty (excerpt x) := by intros; rfl
  copy_expr : ∀ (x : Excerpt) (e : Expr),
    copy (.expr x e) = .expr (excerpt x) (expr e) := by intros; rfl
  copy_decl : ∀ (x : Excerpt) (vars : List Declarator),
    copy (.decl x vars) = .decl (excerpt x) (vars.map var) := by intros; rfl
  copy_block : ∀ (x : Excerpt) (stmts : List Stmt),
    copy (.block x stmts) = .block (excerpt x) (stmts.map copy)
  copy_ifElse : ∀ (x : Excerpt) (e : Expr) (s : Stmt) (t : Option Stmt),
    copy (.ifElse x e s t) = .ifElse (excerpt x) (expr e) (copy s) (t.map copy)
  copy_whileLoop : ∀ (x : Excerpt) (e : Expr) (s : Stmt),
    copy (.whileLoop x e s) = .whileLoop (excerpt x) (expr e) (copy s) := by intros; rfl
  copy_doLoop : ∀ (x : Excerpt) (s : Stmt) (e : Expr),
    copy (.doLoop x s e) = .doLoop (excerpt x) (copy s) (expr e) := by intros; rfl
  copy_forLoop : ∀ (x : Excerpt) (init : List Stmt) (e : Option Expr) (update : List Expr)
    (s : Stmt), copy (.forLoop x init e update s) =
      .forLoop (excerpt x) (init.map copy) (e.map expr) (update.map expr) (copy s)
  copy_breakTo : ∀ (x : Excerpt) (l : Option String),
    copy (.breakTo x l) = .breakTo (excerpt x) (l.map label) := by intros; rfl
  copy_continueTo : ∀ (x : Excerpt) (l : Option String),
    copy (.continueTo x l) = .continueTo (excerpt x) (l.map label) := by intros; rfl
  copy_returnValue : ∀ (x : Excerpt) (e : Option Expr),
    copy (.returnValue x e) = .returnValue (excerpt x) (e.map expr) := by intros; rfl
  copy_throwValue : ∀ (x : Excerpt) (e : Expr),
    copy (.throwValue x e) = .throwValue (excerpt x) (expr e) := by intros; rfl
  copy_labeled : ∀ (x : Excerpt) (l : String) (s : Stmt),
    copy (.labeled x l s) = .labeled (excerpt x) (label l) (copy s) := by intros; rfl
  copy_unsupported : ∀ (x : Excerpt) (kind : Unsupported),
    copy (.unsupported x kind) = .unsupported (excerpt x) kind := by intros; rfl

/-- The same placement behind another label. -/
def Placement.relabel (f : String → String) : Placement → Placement
  | .single => .single
  | .listed => .listed
  | .labeled label => .labeled (f label)

theorem Placement.label?_relabel (f : String → String) (placement : Placement) :
    (placement.relabel f).label? = placement.label?.map f := by
  cases placement <;> rfl

/-- The relation is kept by the nodes that statements bring into a tree, where labels are replaced
and declared variables are related by `Q`. -/
structure Tree.StmtCongruence (label : String → String) (R : Tree → Tree → Prop)
    (Q : LocalInit → LocalInit → Prop) : Prop where
  pin : ∀ {a b}, R a b → R (.pin a) (.pin b)
  block : ∀ {xs ys}, List.Forall₂ R xs ys → R (.block xs) (.block ys)
  fragment : ∀ {xs ys}, List.Forall₂ R xs ys → R (.fragment xs) (.fragment ys)
  declare : ∀ {xs ys}, List.Forall₂ Q xs ys → R (.declare xs) (.declare ys)
  ifElse : ∀ l {c d a b x y}, R c d → R a b → Option.Rel R x y →
    R (.ifElse l c a x) (.ifElse (l.map label) d b y)
  whileLoop : ∀ l {c d a b}, R c d → R a b → R (.whileLoop l c a) (.whileLoop (l.map label) d b)
  doLoop : ∀ l {c d a b}, R a b → R c d → R (.doLoop l a c) (.doLoop (l.map label) b d)
  forLoop : ∀ l {is js c d us ws a b}, List.Forall₂ R is js → Option.Rel R c d →
    List.Forall₂ R us ws → R a b →
      R (.forLoop l is c us a) (.forLoop (l.map label) js d ws b)
  breakTo : ∀ l, R (.breakTo l) (.breakTo (l.map label))
  continueTo : ∀ l, R (.continueTo l) (.continueTo (l.map label))
  returnValue : ∀ {x y}, Option.Rel R x y → R (.returnValue x) (.returnValue y)
  throwValue : ∀ {a b}, R a b → R (.throwValue a) (.throwValue b)

/-- Scopes and targets can be entered and left in related contexts, jumps are checked alike in them,
and copied variables are declared in lockstep. -/
structure Stmt.Copies (L : Leeway) (C : Context → Context → Prop) (R : Tree → Tree → Prop)
    (Q : LocalInit → LocalInit → Prop) (k : Stmt.Copier) : Prop where
  trees : Tree.StmtCongruence k.label R Q
  blames : ∀ x, L.Blames x (k.excerpt x)
  mislabeled : ∀ label x,
    L.alike ⟨.invalidLabelTarget label, x⟩ ⟨.invalidLabelTarget (k.label label), k.excerpt x⟩
  enterFrame : ∀ c d, C c d → C c.enterFrame d.enterFrame
  enterRoot : ∀ c d, C c d → C c.enterRoot d.enterRoot
  leaveFrame : ∀ c d, C c d → C c.leaveFrame d.leaveFrame
  enterLoop : ∀ l c d, C c d → C (c.enterLoop l) (d.enterLoop (l.map k.label))
  enterLabeled : ∀ l c d, C c d → C (c.enterLabeled l) (d.enterLabeled (k.label l))
  leaveTarget : ∀ c d, C c d → C c.leaveTarget d.leaveTarget
  checkBreak : ∀ l x c d, C c d → Corresponds L (fun _ _ => True) (c.jumps.checkBreak l x)
    (d.jumps.checkBreak (l.map k.label) (k.excerpt x))
  checkContinue : ∀ l x c d, C c d → Corresponds L (fun _ _ => True) (c.jumps.checkContinue l x)
    (d.jumps.checkContinue (l.map k.label) (k.excerpt x))
  declares : ∀ x (var : Declarator), (∀ e ∈ var.init, e.Matches L C R (k.expr e)) →
    Lockstep L C Q (lowerVar x var) (lowerVar (k.excerpt x) (k.var var))

namespace Stmt.Copies

variable {α β : Type} {L : Leeway} {C : Context → Context → Prop} {R : Tree → Tree → Prop}
  {Q : LocalInit → LocalInit → Prop} {k : Stmt.Copier} {P : α → β → Prop} {body : Lowering α}
  {body' : Lowering β}

theorem refuse (h : Stmt.Copies L C R Q k) (x : Excerpt) {cause : Cause}
    (hcause : cause.isPlain := by rfl) :
    Lockstep L C P (Lowering.refuse x cause) (Lowering.refuse (k.excerpt x) cause) :=
  lockstep_refuse (h.blames x cause hcause)

theorem inFrame (h : Stmt.Copies L C R Q k) (hbody : Lockstep L C P body body') :
    Lockstep L C P (Lowering.inFrame body) (Lowering.inFrame body') :=
  hbody.bracket h.enterFrame h.leaveFrame

theorem inLoop (h : Stmt.Copies L C R Q k) (placement : Placement)
    (hbody : Lockstep L C P body body') :
    Lockstep L C P (Lowering.inLoop placement.label? body)
      (Lowering.inLoop (placement.relabel k.label).label? body') := by
  rw [placement.label?_relabel]
  exact hbody.bracket (h.enterLoop _) h.leaveTarget

theorem inLabeled (h : Stmt.Copies L C R Q k) (placement : Placement)
    (hbody : Lockstep L C P body body') :
    Lockstep L C P (Lowering.inLabeled placement.label? body)
      (Lowering.inLabeled (placement.relabel k.label).label? body') := by
  cases placement with
  | labeled label => exact hbody.bracket (h.enterLabeled label) h.leaveTarget
  | single => exact hbody
  | listed => exact hbody

theorem unlabeled (h : Stmt.Copies L C R Q k) (placement : Placement) (x : Excerpt)
    (hbody : Lockstep L C P body body') :
    Lockstep L C P (Lowering.unlabeled placement x body)
      (Lowering.unlabeled (placement.relabel k.label) (k.excerpt x) body') := by
  cases placement with
  | labeled label => exact lockstep_refuse (h.mislabeled label x)
  | single => exact hbody
  | listed => exact hbody

theorem lowerVars_lockstep (h : Stmt.Copies L C R Q k) (x : Excerpt) (vars : List Declarator)
    (hexprs : ∀ e ∈ vars.filterMap Declarator.init, e.Matches L C R (k.expr e)) :
    Lockstep L C (List.Forall₂ Q) (lowerVars x vars)
      (lowerVars (k.excerpt x) (vars.map k.var)) := by
  induction vars with
  | nil => exact lockstep_pure .nil
  | cons var rest ih =>
      rw [List.map_cons, lowerVars, lowerVars]
      have hfirst : ∀ e ∈ var.init, e.Matches L C R (k.expr e) :=
        fun e he => hexprs e (List.mem_filterMap.2 ⟨var, List.mem_cons_self, he⟩)
      have hrest : ∀ e ∈ rest.filterMap Declarator.init, e.Matches L C R (k.expr e) := by
        intro e he
        obtain ⟨w, hw, he⟩ := List.mem_filterMap.1 he
        exact hexprs e (List.mem_filterMap.2 ⟨w, List.mem_cons_of_mem _ hw, he⟩)
      refine (h.declares x var hfirst).bind fun _ _ hentry => ?_
      exact (ih hrest).bind fun _ _ hentries => lockstep_pure (.cons hentry hentries)

theorem values (exprs : List Expr) (hexprs : ∀ e ∈ exprs, e.Matches L C R (k.expr e)) :
    Lockstep L C (List.Forall₂ R) (ofView fun v => v.lowerValues exprs)
      (ofView fun v => v.lowerValues (exprs.map k.expr)) := by
  refine lockstep_ofView fun c d hcd => ?_
  induction exprs with
  | nil => exact .nil
  | cons e rest ih =>
      obtain ⟨he, hrest⟩ := List.forall_mem_cons.1 hexprs
      rw [List.map_cons, View.lowerValues, View.lowerValues]
      refine (he.value c d hcd).bind fun _ _ htree => ?_
      exact (ih hrest).bind fun _ _ => .cons htree

mutual

/-- A statement runs in lockstep with its copy if the expressions in it match their copies. -/
theorem lowerStmt_lockstep (h : Stmt.Copies L C R Q k) : ∀ (placement : Placement) (s : Stmt),
    (∀ e ∈ s.exprs, e.Matches L C R (k.expr e)) →
    Lockstep L C R (lowerStmt placement s)
      (lowerStmt (placement.relabel k.label) (k.copy s))
  | placement, .empty x, _ => by
      rw [k.copy_empty, lowerStmt, lowerStmt]
      exact h.unlabeled placement x (lockstep_pure (h.trees.block .nil))
  | placement, .expr x e, hexprs => by
      rw [k.copy_expr, lowerStmt, lowerStmt]
      have he := hexprs e (by simp [Stmt.exprs])
      exact h.unlabeled placement x (lockstep_ofView he.value)
  | placement, .decl x vars, hexprs => by
      rw [Stmt.exprs] at hexprs
      rw [k.copy_decl]
      cases placement with
      | listed =>
          rw [Placement.relabel, lowerStmt, lowerStmt]
          exact (h.lowerVars_lockstep x vars hexprs).bind fun _ _ hentries =>
            lockstep_pure (h.trees.declare hentries)
      | single =>
          rw [Placement.relabel, lowerStmt, lowerStmt]
          · exact h.unlabeled .single x (h.refuse x)
          · simp
          · simp
      | labeled label =>
          rw [Placement.relabel, lowerStmt, lowerStmt]
          · exact h.unlabeled (.labeled label) x (h.refuse x)
          · simp
          · simp
  | placement, .block x stmts, hexprs => by
      rw [Stmt.exprs] at hexprs
      rw [k.copy_block, lowerStmt, lowerStmt]
      refine h.unlabeled placement x (h.inFrame ((h.lowerItems_lockstep stmts hexprs).bind ?_))
      intro _ _ hitems
      exact lockstep_pure (h.trees.block (List.rel_map (fun _ _ htree => h.trees.pin htree) hitems))
  | placement, .ifElse x e s t, hexprs => by
      rw [Stmt.exprs] at hexprs
      rw [k.copy_ifElse, lowerStmt, lowerStmt]
      have he := hexprs e (by simp)
      have hthen := h.lowerStmt_lockstep .single s fun e he => hexprs e (by simp [he])
      have helse := h.lowerElse_lockstep t fun e he => hexprs e (by simp [he])
      refine (lockstep_ofView he.condition).bind fun _ _ htest => ?_
      -- The branches are compiled inside the label, the condition is not.
      refine Lockstep.bind (R := fun x y => R x.1 y.1 ∧ Option.Rel R x.2 y.2)
        (h.inLabeled placement ?_) fun _ _ hbranches => ?_
      · refine hthen.bind fun _ _ hfirst => helse.bind fun _ _ hsecond => ?_
        exact lockstep_pure ⟨hfirst, hsecond⟩
      · rw [placement.label?_relabel]
        exact lockstep_pure (h.trees.ifElse _ htest hbranches.1 hbranches.2)
  | placement, .whileLoop x e s, hexprs => by
      rw [Stmt.exprs] at hexprs
      rw [k.copy_whileLoop, lowerStmt, lowerStmt]
      have he := hexprs e (by simp)
      have hbody := h.lowerStmt_lockstep .single s fun e he => hexprs e (by simp [he])
      refine (lockstep_ofView he.condition).bind fun _ _ htest => ?_
      refine (h.inLoop placement hbody).bind fun _ _ hround => ?_
      rw [placement.label?_relabel]
      exact lockstep_pure (h.trees.whileLoop _ htest hround)
  | placement, .doLoop x s e, hexprs => by
      rw [Stmt.exprs] at hexprs
      rw [k.copy_doLoop, lowerStmt, lowerStmt]
      have he := hexprs e (by simp)
      have hbody := h.lowerStmt_lockstep .single s fun e he => hexprs e (by simp [he])
      refine (h.inLoop placement hbody).bind fun _ _ hround => ?_
      refine (lockstep_ofView he.condition).bind fun _ _ htest => ?_
      rw [placement.label?_relabel]
      exact lockstep_pure (h.trees.doLoop _ hround htest)
  | placement, .forLoop x init e update s, hexprs => by
      rw [Stmt.exprs] at hexprs
      rw [k.copy_forLoop, lowerStmt, lowerStmt]
      have hinit := h.lowerItems_lockstep init fun e he => hexprs e (by simp [he])
      have htest : Lockstep L C (Option.Rel R) (ofView fun v => e.mapM v.lowerCondition)
          (ofView fun v => (e.map k.expr).mapM v.lowerCondition) :=
        lockstep_ofView fun c d hcd => .mapM fun e he =>
          (hexprs e (by simp [Option.mem_def.1 he])).condition c d hcd
      have hupdate := values update fun e he => hexprs e (by simp [he])
      have hbody := h.lowerStmt_lockstep .single s fun e he => hexprs e (by simp [he])
      refine h.inFrame (hinit.bind fun _ _ hfirst => htest.bind fun _ _ htest => ?_)
      refine hupdate.bind fun _ _ hnext => (h.inLoop placement hbody).bind fun _ _ hround => ?_
      rw [placement.label?_relabel]
      exact lockstep_pure (h.trees.forLoop _ hfirst htest hnext hround)
  | placement, .breakTo x l, _ => by
      rw [k.copy_breakTo, lowerStmt, lowerStmt]
      refine h.unlabeled placement x ((lockstep_jump (h.checkBreak l x)).bind fun _ _ _ => ?_)
      exact lockstep_pure (h.trees.breakTo l)
  | placement, .continueTo x l, _ => by
      rw [k.copy_continueTo, lowerStmt, lowerStmt]
      refine h.unlabeled placement x ((lockstep_jump (h.checkContinue l x)).bind fun _ _ _ => ?_)
      exact lockstep_pure (h.trees.continueTo l)
  | placement, .returnValue x e, hexprs => by
      rw [Stmt.exprs] at hexprs
      rw [k.copy_returnValue, lowerStmt, lowerStmt]
      have hvalue : Lockstep L C (Option.Rel R) (ofView fun v => e.mapM (v.lower .value))
          (ofView fun v => (e.map k.expr).mapM (v.lower .value)) :=
        lockstep_ofView fun c d hcd => .mapM fun e he =>
          (hexprs e (Option.mem_toList.2 he)).value c d hcd
      refine h.unlabeled placement x (hvalue.bind fun _ _ htree => ?_)
      exact lockstep_pure (h.trees.returnValue htree)
  | placement, .throwValue x e, hexprs => by
      rw [k.copy_throwValue, lowerStmt, lowerStmt]
      have he := hexprs e (by simp [Stmt.exprs])
      refine h.unlabeled placement x ((lockstep_ofView he.value).bind fun _ _ htree => ?_)
      exact lockstep_pure (h.trees.throwValue htree)
  | placement, .labeled x l s, hexprs => by
      rw [Stmt.exprs] at hexprs
      rw [k.copy_labeled, lowerStmt, lowerStmt]
      exact h.unlabeled placement x (h.lowerStmt_lockstep (.labeled l) s hexprs)
  | placement, .unsupported x kind, _ => by
      rw [k.copy_unsupported, lowerStmt, lowerStmt]
      exact h.unlabeled placement x (h.refuse x)

theorem lowerElse_lockstep (h : Stmt.Copies L C R Q k) : ∀ s : Option Stmt,
    (∀ e ∈ Stmt.exprsOfOption s, e.Matches L C R (k.expr e)) →
    Lockstep L C (Option.Rel R) (lowerElse s) (lowerElse (s.map k.copy))
  | none, _ => by
      rw [Option.map_none, lowerElse]
      exact lockstep_pure .none
  | some s, hexprs => by
      rw [Stmt.exprsOfOption] at hexprs
      rw [Option.map_some, lowerElse, lowerElse]
      have hbranch := h.lowerStmt_lockstep .single s hexprs
      exact hbranch.bind fun _ _ htree => lockstep_pure (.some htree)

theorem lowerItems_lockstep (h : Stmt.Copies L C R Q k) : ∀ stmts : List Stmt,
    (∀ e ∈ Stmt.exprsOfList stmts, e.Matches L C R (k.expr e)) →
    Lockstep L C (List.Forall₂ R) (lowerItems stmts)
      (lowerItems (stmts.map k.copy))
  | [], _ => by
      rw [List.map_nil, lowerItems]
      exact lockstep_pure .nil
  | s :: rest, hexprs => by
      rw [Stmt.exprsOfList] at hexprs
      rw [List.map_cons, lowerItems, lowerItems]
      have hfirst := h.lowerStmt_lockstep .listed s fun e he => hexprs e (List.mem_append_left _ he)
      have hrest := h.lowerItems_lockstep rest fun e he => hexprs e (List.mem_append_right _ he)
      refine hfirst.bind fun _ _ htree => hrest.bind fun _ _ htrees => ?_
      exact lockstep_pure (.cons htree htrees)

end

theorem lowerFragment_lockstep (h : Stmt.Copies L C R Q k) (stmts : List Stmt)
    (hexprs : ∀ e ∈ Stmt.exprsOfList stmts, e.Matches L C R (k.expr e)) :
    Lockstep L C R (lowerFragment stmts)
      (lowerFragment (stmts.map k.copy)) := by
  have hitems := h.lowerItems_lockstep stmts hexprs
  refine Lockstep.bracket (hitems.bind fun _ _ htrees => ?_) h.enterRoot h.leaveFrame
  exact lockstep_pure (h.trees.fragment htrees)

end Stmt.Copies

/-- What can be compiled at a site. -/
inductive Source where
  | expr (e : Expr)
  | stmt (s : Stmt)
  | fragment (stmts : List Stmt)

namespace Source

/-- The outcome of compiling an expression, a statement or a statement list. -/
def compile (site : Site) : Source → Except Fault Tree
  | expr e => compileExpr site e
  | stmt s => compileStmt site s
  | fragment stmts => compileFragment site stmts

/-- The expressions that stand directly in what is compiled. -/
def exprs : Source → List Expr
  | expr e => [e]
  | stmt s => s.exprs
  | fragment stmts => Stmt.exprsOfList stmts

/-- A copy of what is compiled. -/
def copied (k : Stmt.Copier) : Source → Source
  | expr e => expr (k.expr e)
  | stmt s => stmt (k.copy s)
  | fragment stmts => fragment (stmts.map k.copy)

/-- Whatever is compiled, it comes to an outcome that corresponds to that of its copy, if the
expressions in it do. -/
theorem compile_copied {L : Leeway} {C : Context → Context → Prop} {R : Tree → Tree → Prop}
    {Q : LocalInit → LocalInit → Prop} {k : Stmt.Copier} {site site' : Site}
    (h : Stmt.Copies L C R Q k) (hstart : C (.start site) (.start site')) (source : Source)
    (hexprs : ∀ e ∈ source.exprs, e.Matches L C R (k.expr e)) :
    Corresponds L R (source.compile site) ((source.copied k).compile site') := by
  cases source with
  | expr e => exact (hexprs e List.mem_cons_self).value _ _ hstart
  | stmt s => exact (h.lowerStmt_lockstep .single s hexprs).outcome hstart
  | fragment stmts => exact (h.lowerFragment_lockstep stmts hexprs).outcome hstart

end Source

end Breakpoint
