import Breakpoint.Proofs.Statement
import Breakpoint.Proofs.Tables

/-!
Outside of a statement list. A statement that is compiled on its own may enter frames, for blocks
and for headers of loops, but none of them opens a statement list. So nothing can be declared in
them, they stay empty, and no local of the compiled code is ever visible.
-/

namespace Breakpoint

namespace Arena

variable {a : Arena}

/-- No statement list is open, and the open frames have no locals. -/
structure Closed (a : Arena) : Prop where
  root : a.root = none
  tables : ∀ table ∈ a.tables, table = []

theorem closed_empty : empty.Closed := ⟨rfl, by simp⟩

theorem Closed.enter (h : a.Closed) : a.enter.Closed where
  root := h.root
  tables := by simpa using h.tables

theorem Closed.leave (h : a.Closed) : a.leave.Closed where
  root := by simp [Arena.leave, h.root]
  tables table htable := by
    rw [tables_leave] at htable
    exact h.tables table (List.mem_of_mem_tail htable)

theorem Closed.not_visible (h : a.Closed) (name : String) : ¬a.visible name := by
  rw [visible_iff]
  rintro ⟨table, htable, entry, hentry, -⟩
  rw [h.tables table htable] at hentry
  cases hentry

theorem Closed.declare (h : a.Closed) (entry : LocalEntry) (text : String) :
    ∃ fault, a.declare entry text = .error fault := by
  have hclosed : a.inFragment = false := by rw [inFragment, h.root, Option.isSome_none]
  unfold Arena.declare
  rw [hclosed]
  cases a.current with
  | none => exact ⟨_, rfl⟩
  | some i => exact ⟨_, rfl⟩

end Arena

/-- No statement list is open around the code that is compiled. -/
def Context.Closed (c : Context) : Prop := c.arena.Closed

instance Context.stable_closed : Stable Context.Closed where
  enterFrame _ h := Arena.Closed.enter h
  leaveFrame _ h := Arena.Closed.leave h
  enterLoop _ _ := id
  enterLabeled _ _ := id
  leaveTarget _ := id

/-- The statement declares nothing by itself. -/
def Stmt.Undeclaring : Stmt → Prop
  | .decl _ vars => vars = []
  | _ => True

/-- The node declares nothing and refers to no local that compiled code declares. -/
def Tree.Undeclaring : Tree → Prop
  | .declare locals => locals = []
  | .localVar _ .fragment => False
  | _ => True

theorem Tree.OfControl.undeclaring {t : Tree} (h : t.OfControl fun _ => True) : t.Undeclaring := by
  cases t with
  | localVar name slot => exact h.elim
  | declare locals => exact h.elim
  | _ => trivial

theorem Context.Closed.undeclaring {c : Context} (h : c.Closed) {t : Tree} (ht : c.view.Admits t) :
    t.Undeclaring := by
  cases t with
  | localVar name slot =>
      cases slot with
      | fragment => exact h.not_visible name ht
      | _ => trivial
  | declare locals => exact ht.elim
  | _ => trivial

theorem Context.Closed.admitted {c : Context} (h : c.Closed) (e : Expr) :
    c.view.Admitted Tree.Undeclaring (fun _ => True) e :=
  View.admitted_of_covers fun _ _ => ⟨fun _ _ => trivial, fun _ ht => h.undeclaring ht.admits⟩

section Statements

open Lowering

theorem declare_closed (entry : LocalEntry) (text : String) :
    Within Context.Closed (fun _ => False) (declare entry text) := by
  intro c hc
  refine meets_declare ?_
  obtain ⟨fault, hfault⟩ := hc.declare entry text
  rw [hfault]
  trivial

/-- No variable is accepted. -/
theorem lowerVar_closed (excerpt : Excerpt) (var : Declarator) :
    Within Context.Closed (fun _ => False) (lowerVar excerpt var) :=
  (declare_closed _ _).bind fun _ h => h.elim

/-- A statement that compiles there compiles to nodes that declare nothing. -/
theorem lowerStmt_closed (placement : Placement) (s : Stmt) :
    Within Context.Closed (Tree.Every Tree.Undeclaring) (lowerStmt placement s) := by
  have hparts : (Stmt.Spec.every Tree.Undeclaring (fun _ => True) fun _ _ => False).Parts
      (Logic.within Context.Closed) (fun _ => True) fun _ => True :=
    Stmt.Spec.parts_within (fun e _ => within_ofView fun c hc => (hc.admitted e).value)
      (fun e _ => within_ofView fun c hc => (hc.admitted e).condition)
      fun excerpt var _ => lowerVar_closed excerpt var
  have hclosed : (Stmt.Spec.every Tree.Undeclaring (fun _ => True) fun _ _ => False).Closed := by
    refine Stmt.Spec.closed_every (fun _ => Tree.OfControl.undeclaring) ?_
    intro vars entries hentries
    cases hentries with
    | nil => exact Tree.every_iff.2 ⟨rfl, by simp [Tree.children]⟩
    | cons hfalse _ => exact hfalse.elim
  exact hparts.lowerStmt_inList hclosed placement s (fun _ _ => trivial) fun _ _ => trivial

/-- Nothing in the source of what is compiled declares a variable. -/
@[simps] def Stmt.Spec.undeclaring : Stmt.Spec where
  value _ _ := True
  condition _ _ := True
  entry _ _ := False
  stmt _ s _ := ∀ n ∈ s.nodes, n.Undeclaring

theorem Stmt.Spec.closed_undeclaring : undeclaring.Closed where
  empty _ := by simp [Stmt.nodes, Stmt.Undeclaring]
  expr _ _ := by simp [Stmt.nodes, Stmt.Undeclaring]
  decl hentries := by
    cases hentries with
    | nil => simp [Stmt.nodes, Stmt.Undeclaring]
    | cons hfalse _ => exact hfalse.elim
  block _ hitems := by
    have hitems := forall_mem_right hitems.flip fun _ _ _ h => h
    simpa [Stmt.nodes, Stmt.Undeclaring, Stmt.forall_nodesOfList] using hitems
  ifElse _ hfirst hsecond := by
    simp only [undeclaring_stmt, Stmt.nodes, List.forall_mem_cons, List.forall_mem_append,
      Stmt.forall_nodesOfOption]
    refine ⟨trivial, hfirst, ?_⟩
    cases hsecond with
    | none => simp
    | some h => simpa using h
  whileLoop _ hround := by simpa [Stmt.nodes, Stmt.Undeclaring] using hround
  doLoop hround _ := by simpa [Stmt.nodes, Stmt.Undeclaring] using hround
  forLoop hfirst _ _ hround := by
    have hfirst := forall_mem_right hfirst.flip fun _ _ _ h => h
    simp only [undeclaring_stmt, Stmt.nodes, List.forall_mem_cons, List.forall_mem_append,
      Stmt.forall_nodesOfList]
    exact ⟨trivial, hfirst, hround⟩
  breakTo _ := by simp [Stmt.nodes, Stmt.Undeclaring]
  continueTo _ := by simp [Stmt.nodes, Stmt.Undeclaring]
  returnValue _ _ := by simp [Stmt.nodes, Stmt.Undeclaring]
  throwValue _ _ := by simp [Stmt.nodes, Stmt.Undeclaring]
  labeled _ hbody := by simpa [Stmt.nodes, Stmt.Undeclaring] using hbody

/-- A statement that compiles there has no declaration of variables in it: each statement inside is
compiled where no statement list is open either. -/
theorem lowerStmt_undeclaring (placement : Placement) (s : Stmt) :
    Within Context.Closed (fun _ => ∀ n ∈ s.nodes, n.Undeclaring) (lowerStmt placement s) := by
  have hview {α : Type} (outcome : View → Except Fault α) :
      Within Context.Closed (fun _ => True) (ofView outcome) :=
    within_ofView fun c _ => yields_any (outcome c.view)
  have hparts : Stmt.Spec.undeclaring.Parts (Logic.within Context.Closed) (fun _ => True)
      fun _ => True :=
    Stmt.Spec.parts_within (fun _ _ => hview _) (fun _ _ => hview _) fun excerpt var _ =>
      lowerVar_closed excerpt var
  exact hparts.lowerStmt_inList Stmt.Spec.closed_undeclaring placement s (fun _ _ => trivial)
    fun _ _ => trivial

end Statements

/-- Outside of a statement list no local can be declared or read. A statement on its own is refused
if there is a declaration of variables anywhere inside it. Neither a compiled statement nor a
compiled expression declares a local or refers to one that compiled code declares. -/
theorem locals_need_statement_list (site : Site) :
    (∀ s excerpt var vars, .decl excerpt (var :: vars) ∈ s.nodes →
      ∃ fault, compileStmt site s = .error fault) ∧
    (∀ s t, compileStmt site s = .ok t →
      (∀ locals, .declare locals ∈ t.nodes → locals = []) ∧
        ∀ name, .localVar name .fragment ∉ t.nodes) ∧
    ∀ e t, compileExpr site e = .ok t →
      (∀ locals, .declare locals ∈ t.nodes → locals = []) ∧
        ∀ name, .localVar name .fragment ∉ t.nodes := by
  have hstart : (Context.start site).Closed := Arena.closed_empty
  refine ⟨fun s excerpt var vars hdecl => ?_, fun s t hs => ?_, fun e t he => ?_⟩
  · cases hs : compileStmt site s with
    | error fault => exact ⟨fault, rfl⟩
    | ok t =>
        have hnone := ((lowerStmt_undeclaring .single s).outcome hstart).of_ok hs
        cases hnone _ hdecl
  · have hevery := ((lowerStmt_closed .single s).outcome hstart).of_ok hs
    exact ⟨fun _ => hevery _, fun _ => hevery _⟩
  · have hevery := (hstart.admitted e).value.of_ok he
    exact ⟨fun _ => hevery _, fun _ => hevery _⟩

/-- A declaration in the header of a loop, inside the block of a labelled loop. -/
def Stmt.countLabeled : Stmt :=
  .labeled {} "outer" (.whileLoop {} (.literal { ty? := some .boolean } (.bool true))
    (.block {} [.forLoop {} [.decl {} [⟨{ name := "i", ty := .int }, none, {}⟩]] none []
      (.breakTo {} (some "outer"))]))

/-- On its own the statement is refused, although it compiles as the only statement of a list. A
block with a declaration of no variables compiles, and so does a constant. -/
theorem locals_need_statement_list_countLabeled :
    let site : Site := ⟨.empty, ⟨[⟨1⟩], .onInstance⟩, {}⟩
    let block : Tree := .block [.pin (.declare [])]
    let constant : Tree := .literal (.int 1) .int
    (.decl {} [⟨{ name := "i", ty := .int }, none, {}⟩] ∈ Stmt.countLabeled.nodes ∧
      (∃ t, compileFragment site [.countLabeled] = .ok t) ∧
        ∃ fault, compileStmt site .countLabeled = .error fault) ∧
    (compileStmt site (.block {} [.decl {} []]) = .ok block ∧
      (∀ locals, .declare locals ∈ block.nodes → locals = []) ∧
        ∀ name, .localVar name .fragment ∉ block.nodes) ∧
    compileExpr site (.literal {} (.int 1)) = .ok constant ∧
      ∀ name, .localVar name .fragment ∉ constant.nodes := by
  intro site block constant
  obtain ⟨hrefused, hstmt, hexpr⟩ := locals_need_statement_list site
  have hdecl : .decl {} [⟨{ name := "i", ty := .int }, none, {}⟩] ∈ Stmt.countLabeled.nodes := by
    simp [Stmt.countLabeled, Stmt.nodes, Stmt.nodesOfList]
  refine ⟨⟨hdecl, ⟨_, rfl⟩, hrefused _ _ _ _ hdecl⟩, ⟨rfl, ?_⟩, rfl, ?_⟩
  · exact hstmt (.block {} [.decl {} []]) block rfl
  · exact (hexpr (.literal {} (.int 1)) constant rfl).2

end Breakpoint
