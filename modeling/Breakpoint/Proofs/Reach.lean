import Breakpoint.Proofs.Statement

/-!
Enclosing instances in compiled trees. However a tree came about, each current or enclosing instance
in it can be reached at run time from the suspended position, and where there is no current instance
the tree mentions none.
-/

namespace Breakpoint

/-- The instances that a node mentions lie within reach of the site. -/
def Site.Finds (site : Site) : Tree → Prop
  | .thisAt depth | .superAt depth => site.Reaches depth
  | _ => True

/-- The trees that an expression, a statement or a statement list compiles to in the context. -/
inductive Context.Compiles (c : Context) : Tree → Prop where
  | expr {e : Expr} {t : Tree} (h : c.view.lower .value e = .ok t) : Compiles c t
  | stmt {placement : Placement} {s : Stmt} {t : Tree} {c' : Context}
      (h : (lowerStmt placement s).run.run c = (.ok t, c')) : Compiles c t
  | fragment {stmts : List Stmt} {t : Tree} {c' : Context}
      (h : (lowerFragment stmts).run.run c = (.ok t, c')) : Compiles c t

theorem View.Admits.finds {v : View} {t : Tree} (h : v.Admits t) : v.toSite.Finds t := by
  cases t with
  | thisAt depth => exact h
  | superAt depth => exact h
  | _ => trivial

theorem Tree.OfStatement.finds {t : Tree} (site : Site) (h : t.OfStatement fun _ => True) :
    site.Finds t := by
  cases t with
  | thisAt depth => cases h
  | superAt depth => cases h
  | _ => trivial

/-- Every expression compiles to nodes that the site finds, whichever locals are visible. -/
theorem Site.admitted_finds (site : Site) (exprs : List Expr) :
    site.Admitted site.Finds (fun _ => True) exprs := by
  intro e _ v hv
  subst hv
  refine View.admitted_of_covers fun _ _ => ⟨fun _ _ => trivial, fun _ ht => ?_⟩
  exact ht.admits.finds

theorem Context.Compiles.every_finds {c : Context} {t : Tree} (h : c.Compiles t) :
    t.Every c.toSite.Finds := by
  cases h with
  | @expr e _ h =>
      have hadmitted := c.toSite.admitted_finds [e] e List.mem_cons_self c.view rfl
      exact hadmitted.value.of_ok h
  | @stmt placement s _ c' h =>
      have hstmt := lowerStmt_every (fun _ => Tree.OfStatement.finds c.toSite) placement s
        (c.toSite.admitted_finds _)
      exact ((hstmt c rfl).of_ok h).1
  | @fragment stmts _ c' h =>
      have hfragment := lowerFragment_every (fun _ => Tree.OfStatement.finds c.toSite) stmts
        (c.toSite.admitted_finds _)
      exact ((hfragment c rfl).of_ok h).1

/-- Each instance that a compiled tree mentions is reached: there is a current instance, there are
enough classes around it, and every class on the way keeps an enclosing instance. In static code and
outside of every class no tree mentions an instance. -/
theorem instances_reachable {c : Context} {t : Tree} (h : c.Compiles t) :
    (∀ depth, .thisAt depth ∈ t.nodes ∨ .superAt depth ∈ t.nodes →
      c.position.hasThis ∧ depth < c.position.classes.length ∧
        ∀ i < depth, ∃ id, c.position.classes[i]? = some id ∧ c.hierarchy.hasOuterInstance id) ∧
    (c.position.activation = .static ∨ c.position.classes = [] →
      ∀ depth, .thisAt depth ∉ t.nodes ∧ .superAt depth ∉ t.nodes) := by
  have hreach (depth : Nat) (hmem : .thisAt depth ∈ t.nodes ∨ .superAt depth ∈ t.nodes) :
      c.toSite.Reaches depth := by
    rcases hmem with hmem | hmem
    · exact h.every_finds _ hmem
    · exact h.every_finds _ hmem
  refine ⟨hreach, fun hnone depth => ?_⟩
  have hthis : ¬c.position.hasThis := by
    rcases hnone with hstatic | hnil
    · simp [Position.hasThis, hstatic]
    · simp [Position.hasThis, hnil]
  exact ⟨fun hmem => hthis (hreach depth (.inl hmem)).1,
    fun hmem => hthis (hreach depth (.inr hmem)).1⟩

/-- A position in three nested classes, the innermost of which keeps an enclosing instance. -/
def Site.nested : Site where
  hierarchy := Hierarchy.empty.insert { id := ⟨1⟩, name := "Inner", nesting := .inner }
  position := ⟨[⟨1⟩, ⟨2⟩, ⟨3⟩], .onInstance⟩

/-- A local of a method of the outermost class is kept by an instance of the middle one. -/
theorem instances_reachable_captured :
    (Context.start .nested).Compiles (.field (.thisAt 1) "val$x" (.declaredBy ⟨2⟩)) ∧
      Site.nested.position.hasThis ∧ 1 < Site.nested.position.classes.length ∧
        ∀ i < 1, ∃ id, Site.nested.position.classes[i]? = some id ∧
          Site.nested.hierarchy.hasOuterInstance id := by
  have hcompiles :
      (Context.start .nested).Compiles (.field (.thisAt 1) "val$x" (.declaredBy ⟨2⟩)) := by
    refine .expr (e := .name {} none "x" (.localVar ?_)) ?_
    · exact { name := "x", ty := .int, origin := .method ⟨3⟩ }
    · rfl
  refine ⟨hcompiles, (instances_reachable hcompiles).1 1 (.inl ?_)⟩
  simp [Tree.nodes]

end Breakpoint
