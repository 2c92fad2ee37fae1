import Breakpoint.Proofs.Widening

/-!
Statements inside statements. A compiled block, choice or loop has a part for each statement inside
it, and that part is what the inner statement compiles to in a context that can come about there. A
statement that compiles on its own therefore compiles to the same tree wherever it stands, since
every context at the site is larger than the empty one.
-/

namespace Breakpoint

/-- A statement with a gap for a statement directly inside it. -/
inductive Layer where
  | block (excerpt : Excerpt) (before after : List Stmt)
  | thenBranch (excerpt : Excerpt) (condition : Expr) (other : Option Stmt)
  | elseBranch (excerpt : Excerpt) (condition : Expr) (other : Stmt)
  | whileBody (excerpt : Excerpt) (condition : Expr)
  | doBody (excerpt : Excerpt) (condition : Expr)
  | forInit (excerpt : Excerpt) (before after : List Stmt) (condition : Option Expr)
      (update : List Expr) (body : Stmt)
  | forBody (excerpt : Excerpt) (init : List Stmt) (condition : Option Expr) (update : List Expr)
  /-- A layer with a label in front of it. -/
  | labeled (excerpt : Excerpt) (label : String) (layer : Layer)

namespace Layer

/-- The statement with `s` in the gap. -/
def fill (s : Stmt) : Layer → Stmt
  | block excerpt before after => .block excerpt (before ++ s :: after)
  | thenBranch excerpt condition other => .ifElse excerpt condition s other
  | elseBranch excerpt condition other => .ifElse excerpt condition other (some s)
  | whileBody excerpt condition => .whileLoop excerpt condition s
  | doBody excerpt condition => .doLoop excerpt s condition
  | forInit excerpt before after condition update body =>
    .forLoop excerpt (before ++ s :: after) condition update body
  | forBody excerpt init condition update => .forLoop excerpt init condition update s
  | labeled excerpt label layer => .labeled excerpt label (layer.fill s)

/-- The part of a compiled statement that stands where the gap was. -/
def part? : Layer → Tree → Option Tree
  | block _ before _, .block stmts => stmts[before.length]?.bind fun
    | .pin t => some t
    | _ => none
  | thenBranch .., .ifElse _ _ t _ => some t
  | elseBranch .., .ifElse _ _ _ t => t
  | whileBody .., .whileLoop _ _ t => some t
  | doBody .., .doLoop _ t _ => some t
  | forInit _ before _ _ _ _, .forLoop _ init _ _ _ => init[before.length]?
  | forBody .., .forLoop _ _ _ _ t => some t
  | labeled _ _ layer, t => layer.part? t
  | _, _ => none

/-- The statement with `s` inside all the layers, the outermost of which comes first. -/
def fillAll (layers : List Layer) (s : Stmt) : Stmt := layers.foldr (fun layer s => layer.fill s) s

/-- The part of a compiled statement inside all the layers. -/
def partOfAll? (layers : List Layer) (t : Tree) : Option Tree :=
  layers.foldlM (fun t layer => layer.part? t) t

end Layer

/-- In a context that `c` leads to, the statement compiles to `t`, with no label in front of it. -/
def Context.Produces (c : Context) (s : Stmt) (t : Tree) : Prop :=
  ∃ (c' : Context) (placement : Placement), c.Reaches c' ∧ placement.label? = none ∧
    (lowerStmt placement s).answer c' = .ok t

section Parts

open Lowering

variable {α : Type} {c c' : Context} {s : Stmt} {t : Tree} {body : Lowering α} {a : α}

theorem Context.Produces.of_reaches (h : c.Reaches c') (hproduces : c'.Produces s t) :
    c.Produces s t := by
  obtain ⟨c'', placement, hreaches, hlabel, hanswer⟩ := hproduces
  exact ⟨c'', placement, h.trans hreaches, hlabel, hanswer⟩

theorem Lowering.answer_unlabeled {placement : Placement} {excerpt : Excerpt}
    (h : (unlabeled placement excerpt body).answer c = .ok a) : body.answer c = .ok a := by
  cases placement with
  | labeled label => cases h
  | single => exact h
  | listed => exact h

theorem Lowering.answer_inLabeled {label : Option String}
    (h : (inLabeled label body).answer c = .ok a) :
    ∃ c', c.Reaches c' ∧ body.answer c' = .ok a := by
  cases label with
  | none => exact ⟨c, .refl, h⟩
  | some label => exact ⟨c.enterLabeled label, .enterLabeled label .refl, h⟩

/-- The item of a compiled list at the place of a statement is what that statement compiles to,
after the statements before it. -/
theorem lowerItems_produces {before after : List Stmt} {trees : List Tree}
    (hroot : c.arena.Rooted) (h : (lowerItems (before ++ s :: after)).answer c = .ok trees) :
    ∃ t, trees[before.length]? = some t ∧ c.Produces s t := by
  induction before generalizing c trees with
  | nil =>
      rw [List.nil_append, lowerItems] at h
      obtain ⟨t, ht, h⟩ := answer_bind_eq_ok.1 h
      obtain ⟨rest, -, h⟩ := answer_bind_eq_ok.1 h
      cases h
      exact ⟨t, rfl, c, .listed, .refl, rfl, ht⟩
  | cons first before ih =>
      rw [List.cons_append, lowerItems] at h
      obtain ⟨t, -, h⟩ := answer_bind_eq_ok.1 h
      obtain ⟨rest, hrest, h⟩ := answer_bind_eq_ok.1 h
      cases h
      have hfirst := (lowerStmt_extends .listed first c hroot).1
      obtain ⟨u, hu, hproduces⟩ := ih (hfirst.rooted hroot) hrest
      exact ⟨u, hu, hproduces.of_reaches hfirst⟩

/-- The part of a compiled layer is what the statement in the gap compiles to. -/
theorem Layer.fill_produces (layer : Layer) {placement : Placement} (hroot : c.arena.Rooted)
    (h : (lowerStmt placement (layer.fill s)).answer c = .ok t) :
    ∃ u, layer.part? t = some u ∧ c.Produces s u := by
  have hrooted {c' : Context} (h : c.Reaches c') : c'.arena.Rooted := h.rooted hroot
  induction layer generalizing placement with
  | block excerpt before after =>
      rw [fill, lowerStmt] at h
      have hblock := answer_unlabeled h
      obtain ⟨items, hitems, h⟩ := (answer_bind_eq_ok (c := c.enterFrame)).1 hblock
      have henter : c.Reaches c.enterFrame := .enterFrame .refl
      obtain ⟨u, hu, hproduces⟩ := lowerItems_produces (hrooted henter) hitems
      cases h
      exact ⟨u, by simp [part?, hu], hproduces.of_reaches henter⟩
  | thenBranch excerpt condition other =>
      rw [fill, lowerStmt] at h
      obtain ⟨test, -, h⟩ := answer_bind_eq_ok.1 h
      obtain ⟨branches, hbranches, h⟩ := answer_bind_eq_ok.1 h
      obtain ⟨c', hreaches, hbranches⟩ := answer_inLabeled hbranches
      obtain ⟨first, hfirst, hbranches⟩ := answer_bind_eq_ok.1 hbranches
      obtain ⟨second, -, hbranches⟩ := answer_bind_eq_ok.1 hbranches
      cases hbranches
      cases h
      exact ⟨first, rfl, c', .single, hreaches, rfl, hfirst⟩
  | elseBranch excerpt condition other =>
      rw [fill, lowerStmt] at h
      obtain ⟨test, -, h⟩ := answer_bind_eq_ok.1 h
      obtain ⟨branches, hbranches, h⟩ := answer_bind_eq_ok.1 h
      obtain ⟨c', hreaches, hbranches⟩ := answer_inLabeled hbranches
      obtain ⟨first, -, hbranches⟩ := answer_bind_eq_ok.1 hbranches
      obtain ⟨second, hsecond, hbranches⟩ := answer_bind_eq_ok.1 hbranches
      have hfirst := (lowerStmt_extends .single other c' (hrooted hreaches)).1
      rw [lowerElse] at hsecond
      obtain ⟨u, hu, hsecond⟩ := answer_bind_eq_ok.1 hsecond
      cases hsecond
      cases hbranches
      cases h
      exact ⟨u, rfl, _, .single, hreaches.trans hfirst, rfl, hu⟩
  | whileBody excerpt condition =>
      rw [fill, lowerStmt] at h
      obtain ⟨test, -, h⟩ := answer_bind_eq_ok.1 h
      obtain ⟨round, hround, h⟩ := answer_bind_eq_ok.1 h
      cases h
      exact ⟨round, rfl, _, .single, .enterLoop _ .refl, rfl, hround⟩
  | doBody excerpt condition =>
      rw [fill, lowerStmt] at h
      obtain ⟨round, hround, h⟩ := answer_bind_eq_ok.1 h
      obtain ⟨test, -, h⟩ := answer_bind_eq_ok.1 h
      cases h
      exact ⟨round, rfl, _, .single, .enterLoop _ .refl, rfl, hround⟩
  | forInit excerpt before after condition update body =>
      rw [fill, lowerStmt] at h
      obtain ⟨first, hfirst, h⟩ := (answer_bind_eq_ok (c := c.enterFrame)).1 h
      obtain ⟨test, -, h⟩ := answer_bind_eq_ok.1 h
      obtain ⟨next, -, h⟩ := answer_bind_eq_ok.1 h
      obtain ⟨round, -, h⟩ := answer_bind_eq_ok.1 h
      cases h
      have henter : c.Reaches c.enterFrame := .enterFrame .refl
      obtain ⟨u, hu, hproduces⟩ := lowerItems_produces (hrooted henter) hfirst
      exact ⟨u, hu, hproduces.of_reaches henter⟩
  | forBody excerpt init condition update =>
      rw [fill, lowerStmt] at h
      obtain ⟨first, -, h⟩ := answer_bind_eq_ok.1 h
      obtain ⟨test, -, h⟩ := answer_bind_eq_ok.1 h
      obtain ⟨next, -, h⟩ := answer_bind_eq_ok.1 h
      obtain ⟨round, hround, h⟩ := answer_bind_eq_ok.1 h
      cases h
      have henter : c.Reaches c.enterFrame := .enterFrame .refl
      have hinit := (lowerItems_extends init c.enterFrame (hrooted henter)).1
      exact ⟨round, rfl, _, .single, (henter.trans hinit).enterLoop _, rfl, hround⟩
  | labeled excerpt label layer ih =>
      rw [fill, lowerStmt] at h
      exact ih (answer_unlabeled h)

/-- The same for a statement inside any number of layers. -/
theorem Layer.fillAll_produces (layers : List Layer) {placement : Placement}
    (hlabel : placement.label? = none) (hroot : c.arena.Rooted)
    (h : (lowerStmt placement (fillAll layers s)).answer c = .ok t) :
    ∃ u, partOfAll? layers t = some u ∧ c.Produces s u := by
  induction layers generalizing c placement t with
  | nil => exact ⟨t, rfl, c, placement, .refl, hlabel, h⟩
  | cons layer layers ih =>
      -- What is inside the outermost layer has no label of its own in front, as `ih` needs it.
      obtain ⟨u, hu, c', inner, hreaches, hinner, hanswer⟩ := layer.fill_produces hroot h
      obtain ⟨r, hr, hproduces⟩ := ih hinner (hreaches.rooted hroot) hanswer
      refine ⟨r, ?_, hproduces.of_reaches hreaches⟩
      rw [partOfAll?, List.foldlM_cons, hu]
      exact hr

theorem lowerFragment_produces {before after : List Stmt} (hroot : c.arena.Rooted)
    (h : (lowerFragment (before ++ s :: after)).answer c = .ok t) :
    ∃ trees u, t = .fragment trees ∧ trees[before.length]? = some u ∧ c.Produces s u := by
  obtain ⟨items, hitems, h⟩ := (answer_bind_eq_ok (c := c.enterRoot)).1 h
  have henter : c.Reaches c.enterRoot := .enterRoot .refl
  obtain ⟨u, hu, hproduces⟩ := lowerItems_produces (henter.rooted hroot) hitems
  cases h
  exact ⟨items, u, rfl, hu, hproduces.of_reaches henter⟩

end Parts

/-- The context after the statements have been compiled in it, one after the other, whether or not
they were refused. -/
def Context.afterEach (c : Context) (stmts : List Stmt) : Context :=
  stmts.foldl (fun c s => (lowerStmt .single s).after c) c

namespace Context

variable {c c' : Context}

theorem afterEach_reaches (hroot : c.arena.Rooted) (stmts : List Stmt) :
    c.Reaches (c.afterEach stmts) ∧ c.Gains [] (c.afterEach stmts) := by
  induction stmts generalizing c with
  | nil => exact ⟨.refl, c.gains_refl⟩
  | cons s rest ih =>
      obtain ⟨hreaches, entries, rfl, hgains⟩ :=
        lowerStmt_restores .single s (by simp [Stmt.Adds]) c hroot
      obtain ⟨hreaches', hgains'⟩ := ih (hreaches.rooted hroot)
      exact ⟨hreaches.trans hreaches', hgains.trans hgains'⟩

theorem Reaches.site (h : c.Reaches c') : c'.toSite = c.toSite := by
  induction h with
  | refl => rfl
  | enterRoot _ ih => exact ih
  | enterFrame _ ih => exact ih
  | leaveFrame _ ih => exact ih
  | declare _ _ ih => exact ih
  | enterLoop _ _ ih => exact ih
  | enterLabeled _ _ ih => exact ih
  | leaveTarget _ ih => exact ih

/-- Every context at a site is larger than the empty one. -/
theorem Reachable.widens {site : Site} (h : c.Reachable site) : (start site).Widens c where
  site := h.site
  visible name hname := by cases hname
  inFragment hopen := by cases hopen
  targets := ⟨c.jumps.targets, rfl⟩

theorem Reachable.trans {site : Site} (h : c.Reachable site) (h' : c.Reaches c') :
    c'.Reachable site :=
  Reaches.trans h h'

end Context

theorem lowerStmt_listed {s : Stmt} (h : ¬s.Adds .listed) :
    lowerStmt .listed s = lowerStmt .single s := by
  cases s with
  | decl excerpt vars => exact absurd ⟨rfl, excerpt, vars, rfl⟩ h
  | _ =>
      rw [lowerStmt, lowerStmt]
      rfl

/-- A statement that can stand alone compiles in every context at the site to what it compiles to
on its own, also as an item of a list. -/
theorem answer_of_compileStmt {site : Site} {s : Stmt} {t : Tree} (h : compileStmt site s = .ok t)
    {c : Context} (hc : c.Reachable site) {placement : Placement}
    (hlabel : placement.label? = none) : (lowerStmt placement s).answer c = .ok t := by
  have hsingle : (lowerStmt .single s).answer c = .ok t :=
    (lowerStmt_keeps .single s (by simp [Stmt.Adds])).answer _ c (Context.Reachable.rooted .refl)
      hc.rooted hc.widens h
  cases placement with
  | single => exact hsingle
  | labeled label => cases hlabel
  | listed =>
      rw [lowerStmt_listed]
      · exact hsingle
      · -- A declaration cannot stand alone, so it is not among the statements that compile.
        rintro ⟨-, excerpt, vars, rfl⟩
        cases h

theorem Context.Produces.eq {site : Site} {s : Stmt} {t u : Tree} (h : compileStmt site s = .ok t)
    {c : Context} (hc : c.Reachable site) (hproduces : c.Produces s u) : u = t := by
  obtain ⟨c', placement, hreaches, hlabel, hanswer⟩ := hproduces
  rw [answer_of_compileStmt h (hc.trans hreaches) hlabel] at hanswer
  exact (Except.ok.inj hanswer).symm

/-- A statement that compiles keeps its meaning in any larger context, whatever has been compiled
before in either of them. One that compiles on its own compiles to the same tree in every context at
the site, and this tree is its part of whatever compiled statement or list it stands in. -/
theorem meaning_kept (site : Site) (s : Stmt) (t : Tree) :
    (∀ c₁ c₂ : Context, c₁.Reachable site → c₂.Reachable site → c₁.Widens c₂ →
      ∀ before₁ before₂ : List Stmt,
        (lowerStmt .single s).answer (c₁.afterEach before₁) = .ok t →
        (lowerStmt .single s).answer (c₂.afterEach before₂) = .ok t) ∧
    (compileStmt site s = .ok t →
      (∀ c : Context, c.Reachable site → (lowerStmt .single s).answer c = .ok t ∧
        (lowerStmt .listed s).answer c = .ok t ∧
        ∀ layers whole, (lowerStmt .single (Layer.fillAll layers s)).answer c = .ok whole →
          Layer.partOfAll? layers whole = some t) ∧
      ∀ before layers after whole,
        compileFragment site (before ++ Layer.fillAll layers s :: after) = .ok whole →
        ∃ trees item, whole = .fragment trees ∧ trees[before.length]? = some item ∧
          Layer.partOfAll? layers item = some t) := by
  refine ⟨fun c₁ c₂ h₁ h₂ hwidens before₁ before₂ ht => ?_, fun ht => ⟨fun c hc => ?_, ?_⟩⟩
  · obtain ⟨hreaches₁, hgains₁⟩ := Context.afterEach_reaches h₁.rooted before₁
    obtain ⟨hreaches₂, hgains₂⟩ := Context.afterEach_reaches h₂.rooted before₂
    exact (lowerStmt_keeps .single s (by simp [Stmt.Adds])).answer _ _
      (hreaches₁.rooted h₁.rooted) (hreaches₂.rooted h₂.rooted)
      (hwidens.of_gains hgains₁ hgains₂) ht
  · refine ⟨answer_of_compileStmt ht hc rfl, answer_of_compileStmt ht hc rfl, ?_⟩
    intro layers whole hwhole
    obtain ⟨u, hu, hproduces⟩ := Layer.fillAll_produces layers rfl hc.rooted hwhole
    rw [hu, hproduces.eq ht hc]
  · intro before layers after whole hwhole
    have hstart : (Context.start site).Reachable site := .refl
    obtain ⟨trees, item, rfl, hitem, c', placement, hreaches, hlabel, hanswer⟩ :=
      lowerFragment_produces hstart.rooted hwhole
    have hc' := hstart.trans hreaches
    obtain ⟨u, hu, hproduces⟩ := Layer.fillAll_produces layers hlabel hc'.rooted hanswer
    exact ⟨trees, item, rfl, hitem, hproduces.eq ht hc' ▸ hu⟩

/-- A labelled loop that is left at once. -/
def Stmt.leftLoop : Stmt :=
  .labeled {} "outer" (.whileLoop {} (.literal { ty? := some .boolean } (.bool true))
    (.breakTo {} (some "outer")))

/-- What it compiles to. -/
def Tree.leftLoop : Tree :=
  .whileLoop (some "outer") (.literal (.bool true) .boolean) (.breakTo (some "outer"))

/-- A choice with the same label. -/
def Layer.choice : Layer :=
  .labeled {} "outer" (.thenBranch {} (.literal { ty? := some .boolean } (.bool true)) none)

/-- The loop stays what it is inside a loop or a choice of the same label, also after a statement
that was refused there. -/
theorem meaning_kept_leftLoop :
    compileStmt ⟨.empty, .detached, {}⟩ .leftLoop = .ok .leftLoop ∧
      (Context.start ⟨.empty, .detached, {}⟩).Widens .loopBody ∧
      (lowerStmt .single .leftLoop).answer (Context.loopBody.afterEach [.strayJump]) =
        .ok .leftLoop ∧
      ∃ whole trees item,
        compileFragment ⟨.empty, .detached, {}⟩ [.empty {}, Layer.choice.fill .leftLoop] =
          .ok whole ∧
        whole = .fragment trees ∧ trees[1]? = some item ∧
          Layer.choice.part? item = some .leftLoop := by
  have hreachable : Context.loopBody.Reachable ⟨.empty, .detached, {}⟩ :=
    .enterLoop _ (.enterRoot .refl)
  obtain ⟨hlarger, halone⟩ := meaning_kept ⟨.empty, .detached, {}⟩ .leftLoop .leftLoop
  refine ⟨rfl, hreachable.widens, ?_, ?_⟩
  · exact hlarger _ _ .refl hreachable hreachable.widens [] [.strayJump] rfl
  · obtain ⟨trees, item, hwhole, hitem, hpart⟩ := (halone rfl).2 [.empty {}] [.choice] [] _ rfl
    exact ⟨_, trees, item, rfl, hwhole, hitem, by simpa [Layer.partOfAll?] using hpart⟩

end Breakpoint
