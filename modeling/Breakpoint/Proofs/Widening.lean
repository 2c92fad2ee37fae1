import Breakpoint.Proofs.Agreement
import Breakpoint.Proofs.Restoration

/-!
Statements in larger contexts. A statement asks its context which locals are visible, whether a
statement list is open, and which jump targets there are. If it compiles, it compiles to the same
tree in every context that shows more locals and has more targets further out: two runs side by side
enter and leave the same frames and targets, and each frame they enter has the same locals in both.
-/

namespace Breakpoint

namespace Arena

variable {a : Arena} {entry : LocalEntry}

theorem visible_enter (a : Arena) (name : String) : a.enter.visible name = a.visible name := by
  rw [Bool.eq_iff_iff, visible_iff, visible_iff, tables_enter]
  simp

/-- A declaration is accepted if a statement list is open and the innermost table lacks the name. -/
theorem declare_isOk {table : List LocalEntry} (text : String) (hopen : a.inFragment)
    (hhead : a.tables.head? = some table) (hfresh : ∀ other ∈ table, other.name ≠ entry.name) :
    ∃ b, a.declare entry text = .ok b := by
  cases hcurrent : a.current with
  | none =>
      rw [tables, openFrames, hcurrent] at hhead
      cases hhead
  | some i =>
      have hi := a.current_lt i hcurrent
      obtain ⟨rest, htables⟩ := tables_of_current hcurrent hi
      rw [htables] at hhead
      cases hhead
      have hnone : ((a.frames[i]?).bind fun frame => frame.find? entry.name).isSome = false := by
        simpa [Array.getElem?_eq_getElem hi, Frame.find?] using hfresh
      refine ⟨a.add i entry, ?_⟩
      simp [declare, hcurrent, hopen, hnone]

end Arena

namespace Jumps

variable {j : Jumps} {outer : List JumpTarget} {label : Option String} {excerpt : Excerpt}

/-- Targets further out do not matter to a jump that lands. -/
theorem find?_append {name : String} {target : JumpTarget} (h : j.find? name = some target) :
    find? ⟨j.targets ++ outer⟩ name = some target := by
  rw [find?, List.find?_append, Option.or_eq_some_iff]
  exact .inl h

theorem inLoop_append (h : j.inLoop) : inLoop ⟨j.targets ++ outer⟩ := by
  rw [inLoop, List.any_append, Bool.or_eq_true]
  exact .inl h

theorem checkBreak_append (h : j.checkBreak label excerpt = .ok ()) :
    checkBreak ⟨j.targets ++ outer⟩ label excerpt = .ok () := by
  unfold checkBreak at h ⊢
  cases label with
  | none =>
      dsimp only at h ⊢
      split at h
      next hloop => rw [if_pos (inLoop_append hloop)]
      · cases h
  | some name =>
      dsimp only at h ⊢
      split at h
      next target hfind => rw [find?_append hfind]
      · cases h

theorem checkContinue_append (h : j.checkContinue label excerpt = .ok ()) :
    checkContinue ⟨j.targets ++ outer⟩ label excerpt = .ok () := by
  unfold checkContinue at h ⊢
  cases label with
  | none =>
      dsimp only at h ⊢
      split at h
      next hloop => rw [if_pos (inLoop_append hloop)]
      · cases h
  | some name =>
      dsimp only at h ⊢
      split at h
      next target hfind =>
        rw [find?_append hfind]
        exact h
      · cases h

end Jumps

namespace Context

variable {c₁ c₂ c₁' c₂' : Context}

/-- The context `c₂` is at least as large as `c₁`: it is at the same site, shows every local that
`c₁` shows, has an open statement list if `c₁` has, and has the targets of `c₁` innermost. -/
structure Widens (c₁ c₂ : Context) : Prop where
  site : c₂.toSite = c₁.toSite
  visible : ∀ name, (c₁.arena.lookup? name).isSome → (c₂.arena.lookup? name).isSome
  inFragment : c₁.arena.inFragment → c₂.arena.inFragment
  targets : ∃ outer, c₂.jumps.targets = c₁.jumps.targets ++ outer

/-- The larger context has the same innermost table, so that the same names can be declared. -/
structure Shares (c₁ c₂ : Context) : Prop extends Widens c₁ c₂ where
  head : c₂.arena.tables.head? = c₁.arena.tables.head?

theorem Gains.tables (h : c₁.Gains [] c₁') : c₁'.arena.tables = c₁.arena.tables := by
  rw [Arena.tables, h.openFrames, Arena.tables]

theorem Widens.of_gains (h : c₁.Widens c₂) (h₁ : c₁.Gains [] c₁') (h₂ : c₂.Gains [] c₂') :
    c₁'.Widens c₂' where
  site := by rw [h₂.site, h₁.site, h.site]
  visible name hname := by
    rw [h₂.restored.lookup?]
    exact h.visible name (h₁.restored.lookup? name ▸ hname)
  inFragment hopen := by
    rw [h₂.restored.inFragment]
    exact h.inFragment (h₁.restored.inFragment ▸ hopen)
  targets := by
    rw [h₂.jumps, h₁.jumps]
    exact h.targets

theorem Shares.of_gains (h : c₁.Shares c₂) (h₁ : c₁.Gains [] c₁') (h₂ : c₂.Gains [] c₂') :
    c₁'.Shares c₂' where
  toWidens := h.toWidens.of_gains h₁ h₂
  head := by rw [h₂.tables, h₁.tables, h.head]

/-- A frame that is entered in both contexts starts without locals in both. -/
theorem Widens.enterFrame (h : c₁.Widens c₂) : c₁.enterFrame.Shares c₂.enterFrame where
  site := h.site
  visible name hname := by
    have hname' : c₁.arena.visible name := c₁.arena.visible_enter name ▸ hname
    have hwider : c₂.arena.visible name := h.visible name hname'
    exact (c₂.arena.visible_enter name).trans hwider
  inFragment := h.inFragment
  targets := h.targets
  head := by
    change c₂.arena.enter.tables.head? = c₁.arena.enter.tables.head?
    rw [Arena.tables_enter, Arena.tables_enter, List.head?_cons, List.head?_cons]

theorem Widens.enterTarget (h : c₁.Widens c₂) (target : JumpTarget) :
    Widens { c₁ with jumps := ⟨target :: c₁.jumps.targets⟩ }
      { c₂ with jumps := ⟨target :: c₂.jumps.targets⟩ } where
  site := h.site
  visible := h.visible
  inFragment := h.inFragment
  targets := by
    obtain ⟨outer, houter⟩ := h.targets
    exact ⟨outer, congrArg (target :: ·) houter⟩

/-- What can be declared in the smaller context can be declared in the larger one. -/
theorem Shares.declare (h : c₁.Shares c₂) {entry : LocalEntry} {text : String} {a₁ : Arena}
    (h₁ : c₁.arena.declare entry text = .ok a₁) :
    ∃ a₂, c₂.arena.declare entry text = .ok a₂ ∧
      Shares { c₁ with arena := a₁ } { c₂ with arena := a₂ } := by
  obtain ⟨-, -, hopen, -⟩ := Arena.eq_add_of_declare h₁
  obtain ⟨table, rest₁, htables₁, hfresh, hnew₁⟩ := (c₁.arena.declare_meets entry text).of_ok h₁
  -- The innermost tables are the same, so the name is as new in the one as in the other.
  have hhead₂ : c₂.arena.tables.head? = some table := by rw [h.head, htables₁, List.head?_cons]
  obtain ⟨a₂, h₂⟩ := Arena.declare_isOk text (h.inFragment hopen) hhead₂ hfresh
  obtain ⟨table₂, rest₂, htables₂, -, hnew₂⟩ := (c₂.arena.declare_meets entry text).of_ok h₂
  rw [htables₂] at hhead₂
  cases hhead₂
  refine ⟨a₂, h₂, ⟨h.site, fun name hname => ?_, fun _ => ?_, h.targets⟩, ?_⟩
  · have hname₁ : a₁.visible name := hname
    rw [Arena.visible_iff, hnew₁] at hname₁
    have hwider : c₁.arena.visible name → c₂.arena.visible name := h.visible name
    rw [Arena.visible_iff, Arena.visible_iff, htables₁, htables₂] at hwider
    refine (Arena.visible_iff a₂ name).2 ?_
    rw [hnew₂]
    simp only [List.mem_cons, exists_eq_or_imp] at hname₁ hwider ⊢
    rcases hname₁ with (hentry | htable) | hrest
    · exact .inl (.inl hentry)
    · exact .inl (.inr htable)
    · exact (hwider (.inr hrest)).imp_left .inr
  · obtain ⟨i, -, hopen₂, rfl⟩ := Arena.eq_add_of_declare h₂
    exact hopen₂
  · rw [hnew₁, hnew₂, List.head?_cons, List.head?_cons]

theorem Widens.view (h : c₁.Widens c₂) :
    c₂.view = c₁.view.under c₁.options c₂.arena.visible := by
  rw [Context.view, h.site]
  rfl

/-- Only locals of the compiled code are looked up among the visible ones. -/
theorem Widens.namesAgree (h : c₁.Widens c₂) :
    c₁.view.NamesAgree (fun _ => True) (c₁.view.under c₁.options c₂.arena.visible) where
  locals d excerpt := by
    unfold View.localAccess
    cases d.origin with
    | fragment =>
        dsimp only
        split
        next hvisible =>
          have hwider : c₂.arena.visible d.name := h.visible d.name hvisible
          exact .inl (if_pos hwider).symm
        · exact .refused trivial
    | method declaring => exact .refl _
  unresolved := .inl rfl

end Context

namespace Lowering

variable {α β : Type} {c c₁ c₂ : Context} {body : Lowering α} {a : α} {b : β}

/-- What a compilation from `c` comes to. -/
def answer (body : Lowering α) (c : Context) : Except Fault α := (body.run.run c).1

theorem answer_bind_eq_ok {k : α → Lowering β} :
    (body >>= k).answer c = .ok b ↔
      ∃ a, body.answer c = .ok a ∧ (k a).answer (body.after c) = .ok b := by
  unfold answer after
  rw [run_bind]
  generalize body.run.run c = result
  obtain ⟨_ | a, c'⟩ := result
  · simp
  · simp

theorem after_bind {k : α → Lowering β} (h : body.answer c = .ok a) :
    (body >>= k).after c = (k a).after (body.after c) := by
  unfold answer at h
  unfold after
  rw [run_bind]
  generalize body.run.run c = result at h ⊢
  obtain ⟨_ | a', c'⟩ := result
  · cases h
  · cases h
    rfl

/-- A compilation that restores its context and keeps its result in larger contexts. -/
structure Keeps (body : Lowering α) : Prop where
  restores : body.Restores
  answer : ∀ c₁ c₂ : Context, c₁.arena.Rooted → c₂.arena.Rooted → c₁.Widens c₂ →
    ∀ {a : α}, body.answer c₁ = .ok a → body.answer c₂ = .ok a

/-- A compilation that may declare locals, and declares the same ones in larger contexts with the
same innermost table. -/
structure Carries (body : Lowering α) : Prop where
  extending : body.Extends
  answer : ∀ c₁ c₂ : Context, c₁.arena.Rooted → c₂.arena.Rooted → c₁.Shares c₂ →
    ∀ {a : α}, body.answer c₁ = .ok a →
      body.answer c₂ = .ok a ∧ (body.after c₁).Shares (body.after c₂)

theorem Leaves.rooted {E : List LocalEntry → Prop} (h : body.Leaves E) (hroot : c.arena.Rooted) :
    (body.after c).arena.Rooted :=
  (h c hroot).1.rooted hroot

theorem Keeps.carries (h : body.Keeps) : body.Carries where
  extending := h.restores.extends
  answer c₁ c₂ h₁ h₂ hshares _ ha :=
    ⟨h.answer c₁ c₂ h₁ h₂ hshares.toWidens ha,
      hshares.of_gains (h.restores.gains h₁) (h.restores.gains h₂)⟩

theorem Keeps.bind {P : α → Prop} {k : α → Lowering β} (h : body.Keeps)
    (hresults : body.Results P) (hk : ∀ a, P a → (k a).Keeps) : (body >>= k).Keeps where
  restores := h.restores.bind hresults fun a ha => (hk a ha).restores
  answer c₁ c₂ h₁ h₂ hwidens b hb := by
    obtain ⟨a, ha, hb⟩ := answer_bind_eq_ok.1 hb
    have hP : P a := Breakpoint.Meets.of_ok (hresults c₁) ha
    -- Both contexts come back from the first part as they were, so the one is still larger.
    have hwidens' := hwidens.of_gains (h.restores.gains h₁) (h.restores.gains h₂)
    refine answer_bind_eq_ok.2 ⟨a, h.answer c₁ c₂ h₁ h₂ hwidens ha, ?_⟩
    exact (hk a hP).answer _ _ (h.restores.rooted h₁) (h.restores.rooted h₂) hwidens' hb

theorem Carries.bind {P : α → Prop} {k : α → Lowering β} (h : body.Carries)
    (hresults : body.Results P) (hk : ∀ a, P a → (k a).Carries) : (body >>= k).Carries where
  extending := h.extending.bind hresults fun a ha => (hk a ha).extending
  answer c₁ c₂ h₁ h₂ hshares b hb := by
    obtain ⟨a, ha, hb⟩ := answer_bind_eq_ok.1 hb
    have hP : P a := Breakpoint.Meets.of_ok (hresults c₁) ha
    obtain ⟨ha₂, hshares'⟩ := h.answer c₁ c₂ h₁ h₂ hshares ha
    obtain ⟨hb₂, hshares''⟩ :=
      (hk a hP).answer _ _ (h.extending.rooted h₁) (h.extending.rooted h₂) hshares' hb
    refine ⟨answer_bind_eq_ok.2 ⟨a, ha₂, hb₂⟩, ?_⟩
    rw [after_bind ha, after_bind ha₂]
    exact hshares''

theorem keeps_pure (a : α) : (pure a : Lowering α).Keeps :=
  ⟨restores_of_still fun _ => rfl, fun _ _ _ _ _ _ ha => ha⟩

theorem keeps_refuse (excerpt : Excerpt) (cause : Cause) :
    (refuse excerpt cause : Lowering α).Keeps :=
  ⟨restores_of_still fun _ => rfl, fun _ _ _ _ _ _ ha => nomatch ha⟩

/-- An expression, if the views that it is compiled in agree on it. -/
theorem keeps_ofView {outcome : View → Except Fault α}
    (h : ∀ (v : View) options visible, v.NamesAgree (fun _ => True) (v.under options visible) →
      AgreeUnless (fun _ => True) (outcome v) (outcome (v.under options visible))) :
    (ofView outcome).Keeps where
  restores := restores_of_still fun _ => rfl
  answer _ _ _ _ hwidens _ ha := by
    change outcome _ = _
    rw [hwidens.view]
    exact (h _ _ _ hwidens.namesAgree).of_ok ha

theorem keeps_jump {check : Jumps → Except Fault Unit}
    (h : ∀ (j : Jumps) outer, check j = .ok () → check ⟨j.targets ++ outer⟩ = .ok ()) :
    (jump check).Keeps where
  restores := restores_of_still fun _ => rfl
  answer c₁ c₂ _ _ hwidens _ ha := by
    obtain ⟨outer, houter⟩ := hwidens.targets
    have hjumps : c₂.jumps = ⟨c₁.jumps.targets ++ outer⟩ := congrArg Jumps.mk houter
    change check c₂.jumps = _
    rw [hjumps]
    exact h c₁.jumps outer ha

/-- A frame of its own has the same locals in both contexts throughout. -/
theorem Carries.inFrame (h : body.Carries) : (inFrame body).Keeps where
  restores := h.extending.inFrame
  answer c₁ c₂ h₁ h₂ hwidens _ ha := by
    have henter (c : Context) : c.Reaches c.enterFrame := .enterFrame .refl
    exact (h.answer _ _ ((henter c₁).rooted h₁) ((henter c₂).rooted h₂) hwidens.enterFrame ha).1

theorem Keeps.inLoop (label : Option String) (h : body.Keeps) : (inLoop label body).Keeps where
  restores := h.restores.inLoop label
  answer c₁ c₂ h₁ h₂ hwidens _ ha := h.answer (c₁.enterLoop label) (c₂.enterLoop label) h₁ h₂
    (hwidens.enterTarget ⟨label, true⟩) ha

theorem Keeps.inLabeled (label : Option String) (h : body.Keeps) :
    (inLabeled label body).Keeps := by
  cases label with
  | none => exact h
  | some label =>
      refine ⟨h.restores.inLabeled (some label), fun c₁ c₂ h₁ h₂ hwidens _ ha => ?_⟩
      exact h.answer (c₁.enterLabeled label) (c₂.enterLabeled label) h₁ h₂
        (hwidens.enterTarget ⟨some label, false⟩) ha

theorem carries_declare (entry : LocalEntry) (text : String) : (declare entry text).Carries where
  extending c _ :=
    ((declare_declared entry text).mono (fun _ _ h => ⟨h.reaches, _, trivial, h.gains⟩)
      fun _ _ h => ⟨h.reaches, _, trivial, h.gains⟩).after
        (K := fun c' => c.Reaches c' ∧ ∃ entries, True ∧ c.Gains entries c')
  answer c₁ c₂ _ _ hshares _ ha := by
    unfold Lowering.answer at ha ⊢
    unfold Lowering.after
    rw [run_declare] at ha
    cases h₁ : c₁.arena.declare entry text with
    | error fault =>
        rw [h₁] at ha
        cases ha
    | ok a₁ =>
        obtain ⟨a₂, h₂, hshares'⟩ := hshares.declare h₁
        rw [run_declare, run_declare, h₁, h₂]
        exact ⟨rfl, hshares'⟩

/-- Statements in lists declare the same locals in larger contexts, and all keep their results. -/
def Discipline.keeping : Discipline where
  Holds := Keeps
  HoldsInList := Carries
  pure := keeps_pure
  bind := Keeps.bind
  inList := Keeps.carries
  bindInList := Carries.bind
  inFrame := Carries.inFrame
  inLoop := Keeps.inLoop
  inLabeled := Keeps.inLabeled

end Lowering

section Statements

open Lowering

theorem lowerVar_carries (excerpt : Excerpt) (var : Declarator) :
    (lowerVar excerpt var).Carries := by
  refine (carries_declare _ _).bind (results_any _) fun _ _ => Keeps.carries ?_
  refine (keeps_ofView fun v options visible h => ?_).bind (results_any _) fun _ _ => keeps_pure _
  exact View.lowerInit_agree h _ _ _

theorem parts_keeping :
    Stmt.Spec.any.Parts Discipline.keeping.logic (fun _ => True) fun _ => True where
  value e _ := ⟨keeps_ofView fun _ _ _ h => View.lower_agree h .value e, results_any _⟩
  condition e _ := ⟨keeps_ofView fun _ _ _ h => View.lowerCondition_agree h e, results_any _⟩
  entry excerpt _ _ var _ _ := ⟨lowerVar_carries excerpt var, results_any _⟩
  refuse _ _ _ _ _ := ⟨keeps_refuse _ _, results_refuse _ _⟩
  stray _ _ _ _ := ⟨keeps_refuse _ _, results_refuse _ _⟩
  checkBreak _ _ _ := ⟨keeps_jump fun _ _ => Jumps.checkBreak_append, results_any _⟩
  checkContinue _ _ _ := ⟨keeps_jump fun _ _ => Jumps.checkContinue_append, results_any _⟩

/-- A statement other than a listed declaration keeps its meaning in larger contexts. -/
theorem lowerStmt_keeps (placement : Placement) (s : Stmt) (h : ¬s.Adds placement) :
    (lowerStmt placement s).Keeps :=
  (parts_keeping.lowerStmt Stmt.Spec.closed_any placement s (fun _ _ => trivial)
    (fun _ _ => trivial) h).1

end Statements

end Breakpoint
