import Breakpoint.Proofs.Agreement
import Breakpoint.Proofs.Lockstep

/-!
Statements at two sites. A statement is compiled at one site, and a copy of it, in which every
expression was replaced, at another. Both runs have the same scopes and targets throughout, so they
come to corresponding outcomes if the expressions do. One case is that nothing is replaced and the
sites differ only in their options.
-/

namespace Breakpoint

/-- A declared variable with another initial value. -/
def Declarator.mapInit (f : Expr → Expr) (var : Declarator) : Declarator :=
  { var with init := var.init.map f }

mutual

/-- A statement with every expression in it replaced. -/
def Stmt.mapExprs (f : Expr → Expr) : Stmt → Stmt
  | .empty excerpt => .empty excerpt
  | .expr excerpt e => .expr excerpt (f e)
  | .decl excerpt vars => .decl excerpt (vars.map (Declarator.mapInit f))
  | .block excerpt stmts => .block excerpt (Stmt.mapExprsOfList f stmts)
  | .ifElse excerpt condition thenBranch elseBranch =>
    .ifElse excerpt (f condition) (thenBranch.mapExprs f) (Stmt.mapExprsOfOption f elseBranch)
  | .whileLoop excerpt condition body => .whileLoop excerpt (f condition) (body.mapExprs f)
  | .doLoop excerpt body condition => .doLoop excerpt (body.mapExprs f) (f condition)
  | .forLoop excerpt init condition update body =>
    .forLoop excerpt (Stmt.mapExprsOfList f init) (condition.map f) (update.map f) (body.mapExprs f)
  | .breakTo excerpt label => .breakTo excerpt label
  | .continueTo excerpt label => .continueTo excerpt label
  | .returnValue excerpt value => .returnValue excerpt (value.map f)
  | .throwValue excerpt value => .throwValue excerpt (f value)
  | .labeled excerpt label body => .labeled excerpt label (body.mapExprs f)
  | .unsupported excerpt kind => .unsupported excerpt kind

/-- The same for a statement list. -/
def Stmt.mapExprsOfList (f : Expr → Expr) : List Stmt → List Stmt
  | [] => []
  | s :: rest => s.mapExprs f :: Stmt.mapExprsOfList f rest

/-- The same for a branch that may be missing. -/
def Stmt.mapExprsOfOption (f : Expr → Expr) : Option Stmt → Option Stmt
  | none => none
  | some s => some (s.mapExprs f)

end

theorem Declarator.map_mapInit_id (vars : List Declarator) :
    vars.map (Declarator.mapInit id) = vars := by
  have hid : Declarator.mapInit id = id := by
    funext var
    rw [mapInit, Option.map_id]
    rfl
  rw [hid, List.map_id]

mutual

@[simp] theorem Stmt.mapExprs_id : ∀ s : Stmt, s.mapExprs id = s
  | .expr .. | .throwValue .. => by
      rw [mapExprs]
      rfl
  | .empty _ | .breakTo .. | .continueTo .. | .unsupported .. => by rw [mapExprs]
  | .decl _ vars => by rw [mapExprs, Declarator.map_mapInit_id]
  | .block _ stmts => by rw [mapExprs, mapExprsOfList_id stmts]
  | .ifElse _ _ thenBranch elseBranch => by
      rw [mapExprs, mapExprs_id thenBranch, mapExprsOfOption_id elseBranch]
      rfl
  | .whileLoop _ _ body | .doLoop _ body _ => by
      rw [mapExprs, mapExprs_id body]
      rfl
  | .forLoop _ init _ _ body => by
      rw [mapExprs, mapExprsOfList_id init, mapExprs_id body, Option.map_id, List.map_id]
      rfl
  | .returnValue _ _ => by
      rw [mapExprs, Option.map_id]
      rfl
  | .labeled _ _ body => by rw [mapExprs, mapExprs_id body]

@[simp] theorem Stmt.mapExprsOfList_id : ∀ stmts : List Stmt, mapExprsOfList id stmts = stmts
  | [] => by rw [mapExprsOfList]
  | s :: rest => by rw [mapExprsOfList, mapExprs_id s, mapExprsOfList_id rest]

@[simp] theorem Stmt.mapExprsOfOption_id : ∀ s : Option Stmt, mapExprsOfOption id s = s
  | none => by rw [mapExprsOfOption]
  | some s => by rw [mapExprsOfOption, mapExprs_id s]

end

theorem Stmt.mapExprsOfList_eq (f : Expr → Expr) (stmts : List Stmt) :
    mapExprsOfList f stmts = stmts.map (mapExprs f) := by
  induction stmts with
  | nil => rfl
  | cons s rest ih => rw [mapExprsOfList, ih, List.map_cons]

theorem Stmt.mapExprsOfOption_eq (f : Expr → Expr) (s : Option Stmt) :
    mapExprsOfOption f s = s.map (mapExprs f) := by
  cases s <;> rfl

/-- Copies that differ in their expressions. -/
def Stmt.Copier.ofExprs (f : Expr → Expr) : Copier where
  copy := mapExprs f
  expr := f
  var := Declarator.mapInit f
  copy_block _ stmts := by rw [mapExprs, mapExprsOfList_eq]; rfl
  copy_ifElse _ _ _ t := by rw [mapExprs, mapExprsOfOption_eq]; rfl
  copy_forLoop _ init _ _ _ := by rw [mapExprs, mapExprsOfList_eq]; rfl
  copy_breakTo _ l := by rw [mapExprs, Option.map_id]; rfl
  copy_continueTo _ l := by rw [mapExprs, Option.map_id]; rfl

theorem Stmt.Copier.map_label_ofExprs (f : Expr → Expr) (l : Option String) :
    l.map (ofExprs f).label = l :=
  Option.map_id_apply

/-- Statements keep trees the same but for the places of their expressions. -/
theorem Tree.SameBut.stmtCongruence (p : Tree → Tree → Prop) :
    StmtCongruence id (SameBut p) (LocalInit.SameBut p) where
  pin := .pin
  block := .block
  fragment := .fragment
  declare := .declare
  ifElse l _ _ _ _ _ _ hcondition hthen helse := by
    rw [Option.map_id]
    exact .ifElse hcondition hthen helse
  whileLoop l _ _ _ _ hcondition hbody := by
    rw [Option.map_id]
    exact .whileLoop hcondition hbody
  doLoop l _ _ _ _ hbody hcondition := by
    rw [Option.map_id]
    exact .doLoop hbody hcondition
  forLoop l _ _ _ _ _ _ _ _ hinit hcondition hupdate hbody := by
    rw [Option.map_id]
    exact .forLoop hinit hcondition hupdate hbody
  breakTo l := by
    rw [Option.map_id]
    exact .refl _
  continueTo l := by
    rw [Option.map_id]
    exact .refl _
  returnValue := .returnValue
  throwValue := .throwValue

/-- The contexts are at the two sites and have the same scopes and targets. -/
structure Context.SameScopes (site site' : Site) (c d : Context) : Prop where
  first : c.toSite = site
  second : d.toSite = site'
  arena : c.arena = d.arena
  jumps : c.jumps = d.jumps

section Sites

variable {L : Leeway} {site site' : Site} {p : Tree → Tree → Prop} {f : Expr → Expr}

/-- Both sides enter and leave the same scopes and targets and declare the same variables. -/
theorem Context.SameScopes.copies (hsame : ∀ fault, L.alike fault fault) :
    Stmt.Copies L (SameScopes site site') (Tree.SameBut p) (LocalInit.SameBut p) (.ofExprs f) where
  trees := Tree.SameBut.stmtCongruence p
  blames _ _ _ := hsame _
  mislabeled _ _ := hsame _
  enterFrame _ _ h := ⟨h.first, h.second, congrArg Arena.enter h.arena, h.jumps⟩
  enterRoot _ _ h := ⟨h.first, h.second, congrArg Arena.enterRoot h.arena, h.jumps⟩
  leaveFrame _ _ h := ⟨h.first, h.second, congrArg Arena.leave h.arena, h.jumps⟩
  enterLoop l _ _ h := by
    rw [Stmt.Copier.map_label_ofExprs]
    exact ⟨h.first, h.second, h.arena, congrArg (Jumps.enterLoop · l) h.jumps⟩
  enterLabeled l _ _ h := ⟨h.first, h.second, h.arena, congrArg (Jumps.enterLabeled · l) h.jumps⟩
  leaveTarget _ _ h := ⟨h.first, h.second, h.arena, congrArg Jumps.leave h.jumps⟩
  checkBreak l x c d h := by
    rw [Stmt.Copier.map_label_ofExprs, h.jumps]
    exact .refl hsame (fun _ => trivial) _
  checkContinue l x c d h := by
    rw [Stmt.Copier.map_label_ofExprs, h.jumps]
    exact .refl hsame (fun _ => trivial) _
  declares x var hinit := by
    obtain ⟨decl, init, span⟩ := var
    unfold lowerVar
    refine (Lowering.lockstep_declare fun c d h => ?_).bind fun _ _ _ => ?_
    · rw [h.arena]
      exact .refl hsame (fun a => ⟨h.first, h.second, rfl, h.jumps⟩) _
    · refine Lowering.Lockstep.bind (R := Option.Rel (Tree.SameBut p))
        (Lowering.lockstep_ofView fun c d h => ?_)
        fun _ _ hvalue => Lowering.lockstep_pure (.mk hvalue)
      cases init with
      | none => exact .none
      | some e =>
          refine ((hinit e rfl).initial c d h decl.ty).bind fun _ _ hvalue => ?_
          exact .some (.assign (.refl _) hvalue)

/-- An expression matches its copy at the two sites, if views there allow to copy it. -/
theorem View.Copies.matches {R : Tree → Tree → Prop} [Tree.Congruence R] {k : Expr.Copier}
    {q : Expr → Prop} (h : ∀ visible, (View.mk site visible).Copies ⟨site', visible⟩ L R k q)
    {e : Expr} (he : e.Every q) : e.Matches L (Context.SameScopes site site') R (k.copy e) := by
  have hview (c d : Context) (hcd : c.SameScopes site site' d) :
      c.view.Copies d.view L R k q := by
    rw [Context.view, Context.view, hcd.first, hcd.second, hcd.arena]
    exact h _
  exact ⟨fun c d hcd => (hview c d hcd).follows e he .value,
    fun c d hcd => (hview c d hcd).lowerCondition he,
    fun c d hcd ty => (hview c d hcd).lowerInitial ty he⟩

end Sites

namespace Source

/-- What is compiled, with every expression in it replaced. -/
def mapExprs (f : Expr → Expr) : Source → Source
  | expr e => expr (f e)
  | stmt s => stmt (s.mapExprs f)
  | fragment stmts => fragment (Stmt.mapExprsOfList f stmts)

theorem mapExprs_id (source : Source) : source.mapExprs id = source := by
  cases source with
  | expr e => rfl
  | stmt s => rw [mapExprs, Stmt.mapExprs_id]
  | fragment stmts => rw [mapExprs, Stmt.mapExprsOfList_id]

theorem mapExprs_eq (f : Expr → Expr) (source : Source) :
    source.mapExprs f = source.copied (.ofExprs f) := by
  cases source with
  | expr e => rfl
  | stmt s => rfl
  | fragment stmts => exact congrArg fragment (Stmt.mapExprsOfList_eq f stmts)

variable {L : Leeway} {site site' : Site} {p : Tree → Tree → Prop}

/-- A source and its copy at two sites come to corresponding outcomes, if the views there allow to
copy its expressions. -/
theorem compile_corresponds {k : Expr.Copier} {q : Expr → Prop} (source : Source)
    (hsame : ∀ fault, L.alike fault fault)
    (h : ∀ visible, (View.mk site visible).Copies ⟨site', visible⟩ L (Tree.SameBut p) k q)
    (hexprs : ∀ e ∈ source.exprs, e.Every q) :
    Corresponds L (Tree.SameBut p) (source.compile site)
      ((source.mapExprs k.copy).compile site') := by
  rw [mapExprs_eq]
  have hstart : (Context.start site).SameScopes site site' (.start site') := ⟨rfl, rfl, rfl, rfl⟩
  refine compile_copied (Context.SameScopes.copies hsame) hstart source fun e he => ?_
  exact View.Copies.matches h (hexprs e he)

/-- Under two sets of options, what is compiled comes to corresponding outcomes if the locals and
the unresolved names in it do. -/
theorem compile_corresponds_of_comparable {D : LocalDecl → Prop} {options : Options}
    (source : Source) (hsame : ∀ fault, L.alike fault fault)
    (hnames : ∀ e ∈ source.exprs, e.Names D)
    (h : ∀ visible, (View.mk site visible).Comparable L p D
      ((View.mk site visible).under options visible)) :
    Corresponds L (Tree.SameBut p) (source.compile site)
      (source.compile { site with options }) := by
  have hcompile : Corresponds L (Tree.SameBut p) (source.compile site)
      ((source.mapExprs id).compile { site with options }) :=
    source.compile_corresponds (k := .same) hsame (fun visible => (h visible).copies) hnames
  rwa [source.mapExprs_id] at hcompile

end Source

end Breakpoint
