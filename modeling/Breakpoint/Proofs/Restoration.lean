import Breakpoint.Proofs.StmtRules
import Breakpoint.Proofs.Tables

/-!
Compilation gives back the context it was given. A statement enters frames and jump targets while it
is compiled and may be refused in the middle of them; all the same, afterwards the same frame is
current, the same root is open, the jump targets are the same and no frame that was there has
changed. New frames stay behind in the arena, where nothing leads to them. Only the variables of a
declaration outlive it, and only in the current frame.
-/

namespace Breakpoint

/-- The root has been entered. An arena cannot get hold of any other root by its operations. -/
def Arena.Rooted (a : Arena) : Prop := ∀ i ∈ a.root, i < a.frames.size

namespace Context

variable {c c' c'' : Context} {entries entries' : List LocalEntry}

/-- The context `c'` comes from `c` by operations on frames, locals and jump targets. -/
inductive Reaches (c : Context) : Context → Prop where
  | refl : Reaches c c
  | enterRoot {c' : Context} (h : Reaches c c') : Reaches c c'.enterRoot
  | enterFrame {c' : Context} (h : Reaches c c') : Reaches c c'.enterFrame
  | leaveFrame {c' : Context} (h : Reaches c c') : Reaches c c'.leaveFrame
  | declare {c' : Context} {entry : LocalEntry} {text : String} {arena : Arena} (h : Reaches c c')
      (hdeclare : c'.arena.declare entry text = .ok arena) : Reaches c { c' with arena }
  | enterLoop {c' : Context} (label : Option String) (h : Reaches c c') :
      Reaches c (c'.enterLoop label)
  | enterLabeled {c' : Context} (label : String) (h : Reaches c c') :
      Reaches c (c'.enterLabeled label)
  | leaveTarget {c' : Context} (h : Reaches c c') : Reaches c c'.leaveTarget

/-- The contexts that can come about at a site. -/
def Reachable (site : Site) (c : Context) : Prop := (start site).Reaches c

theorem Reaches.trans (h : c.Reaches c') (h' : c'.Reaches c'') : c.Reaches c'' := by
  induction h' with
  | refl => exact h
  | enterRoot _ ih => exact ih.enterRoot
  | enterFrame _ ih => exact ih.enterFrame
  | leaveFrame _ ih => exact ih.leaveFrame
  | declare _ hdeclare ih => exact ih.declare hdeclare
  | enterLoop label _ ih => exact ih.enterLoop label
  | enterLabeled label _ ih => exact ih.enterLabeled label
  | leaveTarget _ ih => exact ih.leaveTarget

end Context

namespace Arena

/-- A declaration that is not refused adds to the current frame. -/
theorem eq_add_of_declare {a b : Arena} {entry : LocalEntry} {text : String}
    (h : a.declare entry text = .ok b) :
    ∃ i, a.current = some i ∧ a.inFragment ∧ b = a.add i entry := by
  unfold declare at h
  split at h
  · cases h
  next i hcurrent =>
    split at h
    · cases h
    next hopen =>
      split at h
      · cases h
      · cases h
        exact ⟨i, hcurrent, by simpa using hopen, rfl⟩

theorem root_leave {a : Arena} {i : Nat} (h : a.current = some i) :
    a.leave.root = if a.root = some i then none else a.root := by
  by_cases hroot : a.root = some i
  · simp [leave, h, hroot]
  · simp [leave, h, hroot, Ne.symm hroot]

end Arena

theorem Context.Reaches.rooted {c c' : Context} (h : c.Reaches c') (hroot : c.arena.Rooted) :
    c'.arena.Rooted := by
  induction h with
  | refl => exact hroot
  | @enterRoot c' _ ih =>
      intro i hi
      have hsize : c'.enterRoot.arena.frames.size = c'.arena.frames.size + 1 := Array.size_push ..
      rw [hsize]
      rcases Option.or_eq_some_iff.1 hi with hi | ⟨-, hi⟩
      · exact Nat.lt_succ_of_lt (ih i hi)
      · cases hi
        exact Nat.lt_succ_self _
  | @enterFrame c' _ ih =>
      intro i hi
      have hsize : c'.enterFrame.arena.frames.size = c'.arena.frames.size + 1 := Array.size_push ..
      rw [hsize]
      exact Nat.lt_succ_of_lt (ih i hi)
  | @leaveFrame c' _ ih =>
      intro i hi
      simp only [Context.leaveFrame, Arena.leave] at hi
      split at hi
      · cases hi
      · exact ih i hi
  | @declare c' entry text arena _ hdeclare ih =>
      obtain ⟨j, -, -, rfl⟩ := Arena.eq_add_of_declare hdeclare
      intro i hi
      have hsize : (c'.arena.add j entry).frames.size = c'.arena.frames.size :=
        Array.size_modify ..
      rw [hsize]
      exact ih i hi
  | enterLoop label _ ih => exact ih
  | enterLabeled label _ ih => exact ih
  | leaveTarget _ ih => exact ih

namespace Context

variable {c c' c'' : Context} {entries entries' : List LocalEntry}

/-- The context `c'` differs from `c` in new frames, and in the entries that the current frame has
gained. -/
structure Gains (c : Context) (entries : List LocalEntry) (c' : Context) : Prop where
  site : c'.toSite = c.toSite
  jumps : c'.jumps = c.jumps
  current : c'.arena.current = c.arena.current
  root : c'.arena.root = c.arena.root
  frames : ∀ (i : Nat) (frame : Frame), c.arena.frames[i]? = some frame →
    c'.arena.frames[i]? = some (if c.arena.current = some i then
      { frame with locals := entries ++ frame.locals } else frame)

theorem gains_refl (c : Context) : c.Gains [] c where
  site := rfl
  jumps := rfl
  current := rfl
  root := rfl
  frames i frame hframe := by
    rw [hframe]
    split <;> rfl

theorem Gains.trans (h : c.Gains entries c') (h' : c'.Gains entries' c'') :
    c.Gains (entries' ++ entries) c'' where
  site := h'.site.trans h.site
  jumps := h'.jumps.trans h.jumps
  current := h'.current.trans h.current
  root := h'.root.trans h.root
  frames i frame hframe := by
    rw [h'.frames i _ (h.frames i frame hframe), h.current]
    by_cases hcurrent : c.arena.current = some i
    · simp [hcurrent]
    · simp [hcurrent]

/-- Old frames stay as they are unless entries are gained. -/
theorem Gains.frame (h : c.Gains [] c') {i : Nat} {frame : Frame}
    (hframe : c.arena.frames[i]? = some frame) : c'.arena.frames[i]? = some frame := by
  rw [h.frames i frame hframe]
  split <;> rfl

theorem Gains.openFrames (h : c.Gains [] c') : c'.arena.openFrames = c.arena.openFrames := by
  refine Arena.openFrames_congr h.current fun i hi j hj => ?_
  rw [h.current] at hi
  have hlt : j < c.arena.frames.size := Nat.lt_of_le_of_lt hj (c.arena.current_lt i hi)
  have hframe := Array.getElem?_eq_getElem hlt
  rw [h.frame hframe, hframe]

/-- Leaving a frame that was entered undoes all that was gained in it. The root is not given up,
unless it was this frame. -/
theorem Gains.leaveFrame {inner : Context} (h : inner.Gains entries c')
    (hsite : inner.toSite = c.toSite) (hjumps : inner.jumps = c.jumps)
    (hframes : inner.arena.frames = c.arena.frames.push { parent := c.arena.current })
    (hcurrent : inner.arena.current = some c.arena.frames.size)
    (hroot : (if inner.arena.root = some c.arena.frames.size then none else inner.arena.root) =
      c.arena.root) : c.Gains [] c'.leaveFrame := by
  have hnew : inner.arena.frames[c.arena.frames.size]? = some { parent := c.arena.current } := by
    rw [hframes, Array.getElem?_push_size]
  refine ⟨h.site.trans hsite, h.jumps.trans hjumps, ?_, ?_, fun i frame hframe => ?_⟩
  · simp [Context.leaveFrame, Arena.leave, h.current, hcurrent, h.frames _ _ hnew]
  · rw [← hroot, ← h.root]
    exact Arena.root_leave (h.current.trans hcurrent)
  · obtain ⟨hlt, rfl⟩ := Array.getElem?_eq_some_iff.1 hframe
    have hold : inner.arena.frames[i]? = some c.arena.frames[i] := by
      rw [hframes, Array.getElem?_push_lt hlt]
    -- What was gained went to the frame that was entered, which is none of the old ones.
    have hne : inner.arena.current ≠ some i := by
      rw [hcurrent]
      intro heq
      exact Nat.ne_of_gt hlt (Option.some.inj heq)
    have hframe' := h.frames i _ hold
    rw [if_neg hne] at hframe'
    refine hframe'.trans ?_
    split <;> rfl

theorem Gains.leave_enterFrame (hroot : c.arena.Rooted) (h : c.enterFrame.Gains entries c') :
    c.Gains [] c'.leaveFrame := by
  refine h.leaveFrame rfl rfl rfl rfl (if_neg fun hsome => ?_)
  exact Nat.lt_irrefl _ (hroot _ hsome)

theorem Gains.leave_enterRoot (hroot : c.arena.Rooted) (h : c.enterRoot.Gains entries c') :
    c.Gains [] c'.leaveFrame := by
  refine h.leaveFrame rfl rfl rfl rfl ?_
  have hinner : c.enterRoot.arena.root = c.arena.root.or (some c.arena.frames.size) := rfl
  rw [hinner]
  cases hsome : c.arena.root with
  | none => simp
  | some i =>
      have hi := hroot i hsome
      simp [Nat.ne_of_lt hi]

/-- Leaving the jump target that was entered. -/
theorem Gains.leaveTarget {target : JumpTarget}
    (h : Gains { c with jumps := ⟨target :: c.jumps.targets⟩ } entries c') :
    c.Gains entries c'.leaveTarget where
  site := h.site
  jumps := by
    change c'.jumps.leave = c.jumps
    rw [h.jumps]
    rfl
  current := h.current
  root := h.root
  frames := h.frames

end Context

namespace Lowering

variable {α β : Type} {E : List LocalEntry → Prop} {body : Lowering α}

/-- The context that a compilation from `c` ends in, refused or not. -/
def after (body : Lowering α) (c : Context) : Context := (body.run.run c).2

/-- From a context whose root has been entered, the compilation comes by operations to a context
that has gained entries of the kind `E`. -/
def Leaves (E : List LocalEntry → Prop) (body : Lowering α) : Prop :=
  ∀ c : Context, c.arena.Rooted →
    c.Reaches (body.after c) ∧ ∃ entries, E entries ∧ c.Gains entries (body.after c)

/-- Nothing is gained. -/
abbrev Restores (body : Lowering α) : Prop := body.Leaves (· = [])

/-- The current frame may gain entries. -/
abbrev Extends (body : Lowering α) : Prop := body.Leaves fun _ => True

theorem Restores.extends (h : body.Restores) : body.Extends := by
  intro c hroot
  obtain ⟨hreaches, entries, -, hgains⟩ := h c hroot
  exact ⟨hreaches, entries, trivial, hgains⟩

theorem Restores.gains (h : body.Restores) {c : Context} (hroot : c.arena.Rooted) :
    c.Gains [] (body.after c) := by
  obtain ⟨-, entries, rfl, hgains⟩ := h c hroot
  exact hgains

/-- A compilation that only reads the context. -/
theorem restores_of_still (h : ∀ c, body.after c = c) : body.Restores := by
  intro c hroot
  rw [h c]
  exact ⟨.refl, [], rfl, c.gains_refl⟩

theorem Leaves.bind (hE : ∀ entries entries', E entries → E entries' → E (entries' ++ entries))
    {P : α → Prop} {k : α → Lowering β} (h : body.Leaves E) (hresults : body.Results P)
    (hk : ∀ a, P a → (k a).Leaves E) : (body >>= k).Leaves E := by
  intro c hroot
  obtain ⟨hreaches, entries, hentries, hgains⟩ := h c hroot
  have hresult := hresults c
  unfold Meets at hresult
  unfold after at hreaches hgains ⊢
  rw [run_bind]
  generalize body.run.run c = result at hresult hreaches hgains ⊢
  obtain ⟨_ | a, c'⟩ := result
  · exact ⟨hreaches, entries, hentries, hgains⟩
  · obtain ⟨hreaches', entries', hentries', hgains'⟩ := hk a hresult c' (hreaches.rooted hroot)
    exact ⟨hreaches.trans hreaches', _, hE _ _ hentries hentries', hgains.trans hgains'⟩

theorem Restores.bind {P : α → Prop} {k : α → Lowering β} (h : body.Restores)
    (hresults : body.Results P) (hk : ∀ a, P a → (k a).Restores) : (body >>= k).Restores :=
  Leaves.bind (by rintro _ _ rfl rfl; rfl) h hresults hk

theorem Extends.bind {P : α → Prop} {k : α → Lowering β} (h : body.Extends)
    (hresults : body.Results P) (hk : ∀ a, P a → (k a).Extends) : (body >>= k).Extends :=
  Leaves.bind (fun _ _ _ _ => trivial) h hresults hk

theorem Extends.inFrame (h : body.Extends) : (inFrame body).Restores := by
  intro c hroot
  have henter : c.Reaches c.enterFrame := .enterFrame .refl
  obtain ⟨hreaches, entries, -, hgains⟩ := h c.enterFrame (henter.rooted hroot)
  exact ⟨(henter.trans hreaches).leaveFrame, [], rfl, hgains.leave_enterFrame hroot⟩

theorem Extends.inRoot (h : body.Extends) : (inRoot body).Restores := by
  intro c hroot
  have henter : c.Reaches c.enterRoot := .enterRoot .refl
  obtain ⟨hreaches, entries, -, hgains⟩ := h c.enterRoot (henter.rooted hroot)
  exact ⟨(henter.trans hreaches).leaveFrame, [], rfl, hgains.leave_enterRoot hroot⟩

theorem Restores.inLoop (label : Option String) (h : body.Restores) :
    (inLoop label body).Restores := by
  intro c hroot
  have henter : c.Reaches (c.enterLoop label) := .enterLoop label .refl
  obtain ⟨hreaches, entries, hentries, hgains⟩ := h (c.enterLoop label) hroot
  exact ⟨(henter.trans hreaches).leaveTarget, entries, hentries, hgains.leaveTarget⟩

theorem Restores.inLabeled (label : Option String) (h : body.Restores) :
    (inLabeled label body).Restores := by
  cases label with
  | none => exact h
  | some label =>
      intro c hroot
      have henter : c.Reaches (c.enterLabeled label) := .enterLabeled label .refl
      obtain ⟨hreaches, entries, hentries, hgains⟩ := h (c.enterLabeled label) hroot
      exact ⟨(henter.trans hreaches).leaveTarget, entries, hentries, hgains.leaveTarget⟩

/-- Compilations in lists may add to the current frame, and the others give the context back. -/
def Discipline.restoring : Discipline where
  Holds := Restores
  HoldsInList := Extends
  pure _ := restores_of_still fun _ => rfl
  bind := Restores.bind
  inList := Restores.extends
  bindInList := Extends.bind
  inFrame := Extends.inFrame
  inLoop := Restores.inLoop
  inLabeled := Restores.inLabeled

theorem Meets.after {c : Context} {K : Context → Prop}
    (h : Meets c (fun _ c' => K c') (fun _ c' => K c') body) : K (body.after c) := by
  unfold Meets at h
  unfold Lowering.after
  generalize body.run.run c = result at h ⊢
  obtain ⟨_ | _, c'⟩ := result
  · exact h
  · exact h

end Lowering

/-- What a variable of a declaration adds to the current frame. -/
def Declarator.entry (excerpt : Excerpt) (var : Declarator) : LocalEntry :=
  ⟨var.decl.name, var.decl.ty, var.span.orElse excerpt.span⟩

/-- The context `c'` is `c` with these entries declared in the current frame, one after the other,
and nothing else. -/
structure Context.Declared (c : Context) (entries : List LocalEntry) (c' : Context) : Prop where
  reaches : c.Reaches c'
  gains : c.Gains entries.reverse c'
  size : c'.arena.frames.size = c.arena.frames.size
  current : entries ≠ [] → c.arena.current.isSome

namespace Context

variable {c c' c'' : Context} {entries entries' : List LocalEntry}

theorem declared_refl (c : Context) : c.Declared [] c :=
  ⟨.refl, c.gains_refl, rfl, fun h => absurd rfl h⟩

theorem Declared.trans (h : c.Declared entries c') (h' : c'.Declared entries' c'') :
    c.Declared (entries ++ entries') c'' where
  reaches := h.reaches.trans h'.reaches
  gains := by
    rw [List.reverse_append]
    exact h.gains.trans h'.gains
  size := h'.size.trans h.size
  current hne := by
    cases entries with
    | nil => exact h.gains.current ▸ h'.current hne
    | cons entry entries => exact h.current (List.cons_ne_nil _ _)

theorem declared_add {arena : Arena} {entry : LocalEntry} {text : String}
    (h : c.arena.declare entry text = .ok arena) : c.Declared [entry] { c with arena } := by
  obtain ⟨i, hcurrent, -, rfl⟩ := Arena.eq_add_of_declare h
  refine ⟨.declare .refl h, ⟨rfl, rfl, rfl, rfl, fun j frame hframe => ?_⟩, ?_, ?_⟩
  · rw [Arena.getElem?_add, hframe, hcurrent]
    by_cases hij : i = j
    · simp [hij]
    · simp [hij]
  · exact Array.size_modify ..
  · simp [hcurrent]

end Context

section Statements

open Lowering

variable {c : Context}

theorem declare_declared (entry : LocalEntry) (text : String) :
    Lowering.Meets c (fun _ c' => c.Declared [] c') (fun _ c' => c.Declared [entry] c')
      (declare entry text) := by
  refine meets_declare ?_
  cases hdeclare : c.arena.declare entry text with
  | ok arena => exact Context.declared_add hdeclare
  | error fault => exact c.declared_refl

/-- A refused variable may have been declared, since its initial value comes later. -/
theorem lowerVar_declared (excerpt : Excerpt) (var : Declarator) :
    Lowering.Meets c (fun _ c' => c.Declared [] c' ∨ c.Declared [var.entry excerpt] c')
      (fun _ c' => c.Declared [var.entry excerpt] c') (lowerVar excerpt var) := by
  unfold lowerVar
  refine Lowering.Meets.bind ((declare_declared _ _).mono (fun _ _ h => .inl h) fun _ _ h => h) ?_
  intro _ c' hdeclared
  refine Lowering.Meets.bind (P := fun _ c' => c.Declared [var.entry excerpt] c')
    (meets_ofView ?_) ?_
  · cases c'.view.lowerInit var.decl.name var.decl.ty var.init with
    | ok init => exact hdeclared
    | error fault => exact .inr hdeclared
  · intro init c'' hdeclared
    exact meets_pure hdeclared

/-- The variables before a refusal are declared, all of them if there is none. -/
theorem lowerVars_declared (excerpt : Excerpt) (vars : List Declarator) :
    Lowering.Meets c
      (fun _ c' => ∃ n ≤ vars.length, c.Declared ((vars.take n).map (·.entry excerpt)) c')
      (fun _ c' => c.Declared (vars.map (·.entry excerpt)) c') (lowerVars excerpt vars) := by
  induction vars generalizing c with
  | nil => exact meets_pure c.declared_refl
  | cons var rest ih =>
      rw [lowerVars]
      refine Lowering.Meets.bind ((lowerVar_declared excerpt var).mono (fun _ c' h => ?_)
        fun _ _ h => h) ?_
      · rcases h with h | h
        · exact ⟨0, Nat.zero_le _, h⟩
        · exact ⟨1, Nat.succ_le_succ (Nat.zero_le _), h⟩
      · intro entry c' hfirst
        refine Lowering.Meets.bind (ih.mono (fun _ c'' h => ?_) fun _ _ h => h)
          fun entries c'' hrest => ?_
        · obtain ⟨n, hn, hrest⟩ := h
          exact ⟨n + 1, Nat.succ_le_succ hn, hfirst.trans hrest⟩
        · exact meets_pure (hfirst.trans hrest)

theorem lowerDecl_declared (excerpt : Excerpt) (vars : List Declarator) :
    Lowering.Meets c
      (fun _ c' => ∃ n ≤ vars.length, c.Declared ((vars.take n).map (·.entry excerpt)) c')
      (fun _ c' => c.Declared (vars.map (·.entry excerpt)) c') (lowerDecl excerpt vars) :=
  (lowerVars_declared excerpt vars).bind fun _ _ h => meets_pure h

theorem lowerVar_extends (excerpt : Excerpt) (var : Declarator) :
    (lowerVar excerpt var).Extends := by
  intro c _
  refine ((lowerVar_declared (c := c) excerpt var).mono (fun _ c' h => ?_) fun _ c' h => ?_).after
    (K := fun c' => c.Reaches c' ∧ ∃ entries, True ∧ c.Gains entries c')
  · rcases h with h | h
    · exact ⟨h.reaches, _, trivial, h.gains⟩
    · exact ⟨h.reaches, _, trivial, h.gains⟩
  · exact ⟨h.reaches, _, trivial, h.gains⟩

/-! ### Statements -/

/-- Only a variable adds to the current frame; what a statement asks, checks or refuses does not. -/
theorem parts_restoring :
    Stmt.Spec.any.Parts Discipline.restoring.logic (fun _ => True) fun _ => True where
  value _ _ := ⟨restores_of_still fun _ => rfl, results_any _⟩
  condition _ _ := ⟨restores_of_still fun _ => rfl, results_any _⟩
  entry excerpt _ _ var _ _ := ⟨lowerVar_extends excerpt var, results_any _⟩
  refuse _ _ _ _ _ := ⟨restores_of_still fun _ => rfl, results_refuse _ _⟩
  stray _ _ _ _ := ⟨restores_of_still fun _ => rfl, results_refuse _ _⟩
  checkBreak _ _ _ := ⟨restores_of_still fun _ => rfl, results_any _⟩
  checkContinue _ _ _ := ⟨restores_of_still fun _ => rfl, results_any _⟩

/-- Compiling a statement restores the context, unless it is a declaration in a list. -/
theorem lowerStmt_restores (placement : Placement) (s : Stmt) (h : ¬s.Adds placement) :
    (lowerStmt placement s).Restores :=
  (parts_restoring.lowerStmt Stmt.Spec.closed_any placement s (fun _ _ => trivial)
    (fun _ _ => trivial) h).1

theorem lowerStmt_extends (placement : Placement) (s : Stmt) :
    (lowerStmt placement s).Extends :=
  (parts_restoring.lowerStmt_inList Stmt.Spec.closed_any placement s (fun _ _ => trivial)
    fun _ _ => trivial).1

theorem lowerItems_extends (stmts : List Stmt) : (lowerItems stmts).Extends :=
  (parts_restoring.lowerItems Stmt.Spec.closed_any stmts (fun _ _ => trivial)
    fun _ _ => trivial).1

theorem lowerFragment_restores (stmts : List Stmt) : (lowerFragment stmts).Restores := by
  refine Extends.inRoot ((lowerItems_extends stmts).bind (results_any _) fun items _ => ?_)
  exact Restores.extends (restores_of_still fun _ => rfl)

end Statements

/-- Nothing that can be seen of `c` is different in `c'`: neither the jump targets nor the current
frame nor the root nor any frame of `c`. -/
structure Context.Restored (c c' : Context) : Prop where
  targets : c'.jumps.targets = c.jumps.targets
  current : c'.arena.current = c.arena.current
  root : c'.arena.root = c.arena.root
  frames : ∀ (i : Nat) (frame : Frame), c.arena.frames[i]? = some frame →
    c'.arena.frames[i]? = some frame
  depth : c'.arena.depth = c.arena.depth
  inFragment : c'.arena.inFragment = c.arena.inFragment
  inLoop : c'.jumps.inLoop = c.jumps.inLoop
  lookup? : ∀ name, c'.arena.lookup? name = c.arena.lookup? name

theorem Context.Gains.restored {c c' : Context} (h : c.Gains [] c') : c.Restored c' where
  targets := congrArg Jumps.targets h.jumps
  current := h.current
  root := h.root
  frames _ _ := h.frame
  depth := congrArg List.length h.openFrames
  inFragment := congrArg Option.isSome h.root
  inLoop := congrArg Jumps.inLoop h.jumps
  lookup? name := by rw [Arena.lookup?, h.openFrames, Arena.lookup?]

theorem Context.Reachable.rooted {site : Site} {c : Context} (h : c.Reachable site) :
    c.arena.Rooted :=
  Reaches.rooted h fun i hi => by cases hi

/-- In every context that operations can lead to, compiling a statement, a block or a whole
statement list gives the context back, whether or not it is refused. A declaration adds its
variables to the current frame, up to the one that is refused, and changes nothing else. -/
theorem context_restored {site : Site} {c : Context} (h : c.Reachable site) :
    (∀ s, c.Restored ((lowerStmt .single s).after c)) ∧
    (∀ stmts, c.Restored ((lowerBlock stmts).after c)) ∧
    (∀ stmts, c.Restored ((lowerFragment stmts).after c)) ∧
    ∀ excerpt vars, ∃ n ≤ vars.length,
      c.Declared ((vars.take n).map (·.entry excerpt)) ((lowerDecl excerpt vars).after c) ∧
      ∀ t, ((lowerDecl excerpt vars).run.run c).1 = .ok t → n = vars.length := by
  have hroot := h.rooted
  have hstmt (s : Stmt) : c.Restored ((lowerStmt .single s).after c) :=
    ((lowerStmt_restores .single s (by simp [Stmt.Adds])).gains hroot).restored
  refine ⟨hstmt, fun stmts => hstmt _, fun stmts => ?_, fun excerpt vars => ?_⟩
  · exact ((lowerFragment_restores stmts).gains hroot).restored
  · have hdeclared := lowerDecl_declared (c := c) excerpt vars
    cases houtcome : ((lowerDecl excerpt vars).run.run c).1 with
    | ok t =>
        have hall := Breakpoint.Meets.of_ok hdeclared houtcome
        refine ⟨vars.length, Nat.le_refl _, ?_, fun _ _ => rfl⟩
        rw [List.take_length]
        exact hall
    | error fault =>
        obtain ⟨n, hn, hprefix⟩ := Breakpoint.Meets.of_error hdeclared houtcome
        exact ⟨n, hn, hprefix, fun t ht => by cases ht⟩

/-- The body of a loop in a statement list. -/
def Context.loopBody : Context :=
  (start ⟨.empty, .detached, {}⟩).enterRoot.enterLoop (some "outer")

/-- A block with a block inside it that jumps out of a statement that is not there. -/
def Stmt.strayJump : Stmt :=
  .block {} [.breakTo {} (some "outer"), .block {} [.breakTo ⟨"break inner;", {}⟩ (some "inner")]]

/-- The jump is refused two frames further in, and the context comes back all the same. -/
theorem context_restored_strayJump :
    Context.loopBody.Reachable ⟨.empty, .detached, {}⟩ ∧
      ((lowerStmt .single .strayJump).run.run .loopBody).1 =
        .error ⟨.undefinedLabel "inner", "break inner;", {}⟩ ∧
      Context.loopBody.Restored ((lowerStmt .single .strayJump).after .loopBody) := by
  have hreachable : Context.loopBody.Reachable ⟨.empty, .detached, {}⟩ :=
    .enterLoop _ (.enterRoot .refl)
  exact ⟨hreachable, rfl, (context_restored hreachable).1 _⟩

end Breakpoint
