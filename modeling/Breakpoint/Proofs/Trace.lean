import Breakpoint.Proofs.Event
import Breakpoint.Proofs.ExprRules
import Breakpoint.Proofs.Tables

/-!
Compilation follows the reading. A context knows the names and targets around the code that is being
compiled. While a statement is compiled, the context changes as reading the statement changes its
surroundings, and as reading the compiled tree does; every event of the tree is in order where it is
met, and a refusal for a name or a jump blames an event of the source that is out of order where it
is met.
-/

namespace Breakpoint

/-- The causes that blame a jump for where it stands. -/
def Cause.ofJump : Cause → Bool
  | breakOutsideLoop | continueOutsideLoop | undefinedLabel _ | notALoopLabel _ => true
  | _ => false

/-- The causes that blame a name or a jump for where it stands. -/
def Cause.ofNesting (cause : Cause) : Bool :=
  match cause with
  | variableRedeclaration _ | localNotAccessible _ => true
  | _ => cause.ofJump

theorem Cause.not_ofNesting_of_ofExpr {cause : Cause} (h : cause.ofExpr) : ¬cause.ofNesting := by
  cases cause with
  | variableRedeclaration | localNotAccessible | breakOutsideLoop | continueOutsideLoop
  | undefinedLabel | notALoopLabel => cases h
  | _ => exact Bool.false_ne_true

namespace Context

/-- The names and the jump targets around the code. -/
def surroundings (c : Context) : Surroundings where
  frames := c.arena.tables.map fun table => table.map LocalEntry.name
  targets := c.jumps.targets

@[simp] theorem targets_surroundings (c : Context) : c.surroundings.targets = c.jumps.targets := rfl

/-- Compilation from `c` to `c'` has followed the source and the events of a compiled tree, and
these are in order. -/
structure Follows (c : Context) (source : List (Event Excerpt)) (events : List (Event Unit))
    (c' : Context) : Prop where
  site : c'.toSite = c.toSite
  obeyed : c.surroundings.Obeyed events
  tree : c'.surroundings = c.surroundings.run events
  source : c'.surroundings = c.surroundings.run source

variable {c c' c'' : Context} {source source' : List (Event Excerpt)}
  {events events' : List (Event Unit)}

theorem Follows.append (h : c.Follows source events c') (h' : c'.Follows source' events' c'') :
    c.Follows (source ++ source') (events ++ events') c'' where
  site := h'.site.trans h.site
  obeyed := h.obeyed.append (h.tree ▸ h'.obeyed)
  tree := by rw [Surroundings.run_append, ← h.tree, h'.tree]
  source := by rw [Surroundings.run_append, ← h.source, h'.source]

/-- A single event, the same in the source and in the tree. -/
theorem Follows.single (event : ∀ ε : Type, Event ε) (hsite : c'.toSite = c.toSite)
    (hallows : c.surroundings.Allows (event Unit))
    (hafter : ∀ ε, c'.surroundings = c.surroundings.after (event ε)) :
    c.Follows [event Excerpt] [event Unit] c' where
  site := hsite
  obeyed := ⟨hallows, trivial⟩
  tree := hafter Unit
  source := hafter Excerpt

theorem shows_iff_visible (c : Context) (name : String) :
    c.surroundings.Shows name ↔ c.view.visible name := by
  change _ ↔ c.arena.visible name
  rw [Arena.visible_iff]
  simp [Surroundings.Shows, surroundings]

theorem surroundings_enterFrame {ε : Type} (c : Context) :
    c.enterFrame.surroundings = c.surroundings.after (.enterFrame : Event ε) := by
  simp [surroundings, enterFrame, Surroundings.after]

theorem surroundings_enterRoot {ε : Type} (c : Context) :
    c.enterRoot.surroundings = c.surroundings.after (.enterFrame : Event ε) := by
  simp [surroundings, enterRoot, Surroundings.after]

theorem surroundings_leaveFrame {ε : Type} (c : Context) :
    c.leaveFrame.surroundings = c.surroundings.after (.leaveFrame : Event ε) := by
  simp [surroundings, leaveFrame, Surroundings.after]

theorem surroundings_leaveTarget {ε : Type} (c : Context) :
    c.leaveTarget.surroundings = c.surroundings.after (.leaveTarget : Event ε) := by
  simp [surroundings, leaveTarget, Jumps.leave, Surroundings.after]

end Context

namespace Surroundings

variable {ε : Type} {s : Surroundings}

/-- Events that change nothing. -/
theorem run_eq_self {events : List (Event ε)} (h : ∀ event ∈ events, s.after event = s) :
    s.run events = s := by
  induction events with
  | nil => rfl
  | cons event rest ih =>
      rw [run_cons, h event List.mem_cons_self]
      exact ih fun event hevent => h event (List.mem_cons_of_mem _ hevent)

theorem obeyed_of_references {events : List (Event ε)}
    (h : ∀ event ∈ events, s.after event = s ∧ s.Allows event) : s.Obeyed events := by
  induction events with
  | nil => trivial
  | cons event rest ih =>
      have hevent := h event List.mem_cons_self
      refine ⟨hevent.2, ?_⟩
      rw [hevent.1]
      exact ih fun event hevent => h event (List.mem_cons_of_mem _ hevent)

theorem blames_of_mem {classes : List ClassId} {source : List (Event Excerpt)}
    {event : Event Excerpt} {fault : Fault} (h : ∀ event ∈ source, s.after event = s)
    (hevent : event ∈ source) (hrefuses : s.Refuses classes event fault) :
    s.Blames classes source fault := by
  obtain ⟨before, after, rfl⟩ := List.append_of_mem hevent
  refine ⟨before, event, after, rfl, ?_⟩
  rwa [run_eq_self fun event hevent => h event (List.mem_append_left _ hevent)]

end Surroundings

theorem Expr.after_event {e : Expr} {event : Event Excerpt} (h : event ∈ e.events)
    (s : Surroundings) : s.after event = s := by
  obtain ⟨n, -, hn⟩ := List.mem_filterMap.1 h
  unfold Expr.event? at hn
  split at hn
  · split at hn <;> cases hn <;> rfl
  · cases hn

namespace View

theorem Admits.mem_events {v : View} {t : Tree} (h : v.Admits t) {event : Event Unit}
    (hevent : event ∈ t.events) :
    (∃ name, t = .localVar name .fragment ∧ event = .refer name ()) ∨
      ∃ s ∈ t.children, event ∈ s.events := by
  cases t with
  | localVar name slot =>
      cases slot with
      | fragment => exact .inl ⟨name, rfl, List.mem_singleton.1 hevent⟩
      | _ => cases hevent
  | literal | thisAt | superAt | typeRef | classObject => cases hevent
  | pin | block | declare | ifElse | whileLoop | doLoop | forLoop | breakTo | continueTo
  | returnValue | throwValue | fragment => cases h
  | _ =>
      refine .inr (List.mem_flatMap.1 ?_)
      simpa [Tree.events, Tree.children, Tree.eventsOfList_eq, Tree.eventsOfOption_eq,
        Tree.eventsOfListOption_eq] using hevent

/-- The events of an admitted expression are references to visible locals. -/
theorem events_of_every_admits {v : View} {t : Tree} (h : t.Every v.Admits) :
    ∀ event ∈ t.events, ∃ name, event = .refer name () ∧ v.visible name := by
  induction t using Tree.children_induction with
  | step t ih =>
      obtain ⟨hadmits, hchildren⟩ := Tree.every_iff.1 h
      intro event hevent
      rcases hadmits.mem_events hevent with ⟨name, rfl, rfl⟩ | ⟨s, hs, hevent⟩
      · exact ⟨name, rfl, hadmits⟩
      · exact ih s hs (hchildren s hs) event hevent

/-- A refusal for where a name stands blames a reference that is out of order there. -/
theorem Blames.refuses {c : Context} {e : Expr} {fault : Fault} (h : c.view.Blames e fault)
    (hcause : fault.cause.ofNesting) :
    ∃ event ∈ e.events, c.surroundings.Refuses c.position.classes event fault := by
  obtain ⟨n, hn, hraises⟩ := h
  cases hraises with
  | node _ hexpr => exact absurd hcause (Cause.not_ofNesting_of_ofExpr hexpr)
  | operands => cases hcause
  | @hidden note qualifier name d hidden =>
      unfold Hides at hidden
      split at hidden
      next horigin =>
        refine ⟨.refer d.name note.excerpt, List.mem_filterMap.2 ⟨_, hn, ?_⟩, .hidden ?_⟩
        · simp [Expr.event?, horigin]
        · rw [c.shows_iff_visible]
          simpa using hidden
      next declaring horigin =>
        refine ⟨.capture d.name declaring note.excerpt, List.mem_filterMap.2 ⟨_, hn, ?_⟩,
          .foreign hidden⟩
        simp [Expr.event?, horigin]

end View

namespace Context

variable {c : Context} {label : String}

/-- The innermost target of a label, and the targets inside it. -/
theorem find?_jumps_eq_some {target : JumpTarget} (h : c.jumps.find? label = some target) :
    ∃ inner outer, c.surroundings.targets = inner ++ target :: outer ∧
      (∀ other ∈ inner, other.label ≠ some label) ∧ target.label = some label := by
  obtain ⟨hlabel, inner, outer, htargets, hinner⟩ := List.find?_eq_some_iff_append.1 h
  exact ⟨inner, outer, htargets, by simpa using hinner, by simpa using hlabel⟩

theorem find?_jumps_eq_none (h : c.jumps.find? label = none) :
    ∀ target ∈ c.surroundings.targets, target.label ≠ some label := by
  simpa using List.find?_eq_none.1 h

theorem checkBreak_meets (c : Context) (label : Option String) (excerpt : Excerpt) :
    Meets (c.surroundings.Refuses c.position.classes (.jump (.breakTo label) excerpt))
      (fun _ => c.surroundings.Receives (.breakTo label)) (c.jumps.checkBreak label excerpt) := by
  unfold Jumps.checkBreak
  split
  · split
    next h => exact List.any_eq_true.1 h
    next h => exact .missed (.breakOutsideLoop (by simpa [Jumps.inLoop] using h))
  · split
    next target h =>
      obtain ⟨inner, outer, htargets, -, hlabel⟩ := find?_jumps_eq_some h
      refine ⟨target, ?_, hlabel⟩
      rw [htargets]
      exact List.mem_append_right _ List.mem_cons_self
    next h => exact .missed (.undefinedLabel rfl (find?_jumps_eq_none h))

theorem checkContinue_meets (c : Context) (label : Option String) (excerpt : Excerpt) :
    Meets (c.surroundings.Refuses c.position.classes (.jump (.continueTo label) excerpt))
      (fun _ => c.surroundings.Receives (.continueTo label))
      (c.jumps.checkContinue label excerpt) := by
  unfold Jumps.checkContinue
  split
  · split
    next h => exact List.any_eq_true.1 h
    next h => exact .missed (.continueOutsideLoop (by simpa [Jumps.inLoop] using h))
  · split
    next target h =>
      obtain ⟨inner, outer, htargets, hinner, hlabel⟩ := find?_jumps_eq_some h
      split
      next hloop => exact ⟨inner, target, outer, htargets, hinner, hlabel, hloop⟩
      next hloop => exact .missed (.notALoopLabel htargets hinner hlabel hloop)
    next h => exact .missed (.undefinedLabel rfl (find?_jumps_eq_none h))

end Context

namespace Lowering

variable {α β : Type} {c : Context} {source source' : List (Event Excerpt)}
  {R : α → List (Event Unit) → Prop} {Q : β → List (Event Unit) → Prop} {body : Lowering α}

/-- From `c` the compilation follows the source and the events that `R` relates to its result, or
its refusal blames an event of the source. -/
def Traces (c : Context) (source : List (Event Excerpt)) (R : α → List (Event Unit) → Prop)
    (body : Lowering α) : Prop :=
  Meets c
    (fun fault _ => fault.cause.ofNesting → c.surroundings.Blames c.position.classes source fault)
    (fun a c' => ∃ events, R a events ∧ c.Follows source events c') body

/-- A whole compilation starts with nothing around it. -/
theorem Traces.outcome {site : Site} {body : Lowering Tree}
    (h : Traces (Context.start site) source (fun t events => events = t.events) body) :
    Breakpoint.Meets
      (fun fault => fault.cause.ofNesting →
        Surroundings.Blames site.position.classes {} source fault)
      (fun t => Surroundings.Obeyed {} t.events) (body.outcome site) := by
  refine Meets.outcome (Meets.mono h (fun _ _ => id) fun t c' ht => ?_)
  obtain ⟨events, rfl, hfollows⟩ := ht
  exact hfollows.obeyed

theorem traces_pure {a : α} (h : R a []) : Traces c [] R (pure a) :=
  meets_pure ⟨[], h, rfl, trivial, rfl, rfl⟩

theorem traces_refuse {cause : Cause} (excerpt : Excerpt) (h : cause.ofNesting = false) :
    Traces c source R (refuse excerpt cause) :=
  meets_refuse fun hcause => absurd hcause (by simp [h])

theorem Traces.bind {k : α → Lowering β} (h : Traces c source R body)
    (hk : ∀ a events c', R a events → c.Follows source events c' →
      Traces c' source' (fun b later => Q b (events ++ later)) (k a)) :
    Traces c (source ++ source') Q (body >>= k) := by
  refine Meets.bind (Meets.mono h (fun fault _ hfault hcause => (hfault hcause).append _)
    fun a c' ha => ha) fun a c' ha => ?_
  obtain ⟨events, hevents, hfollows⟩ := ha
  refine (hk a events c' hevents hfollows).mono (fun fault _ hfault hcause => ?_) fun b c'' hb => ?_
  · have hblames := hfault hcause
    rw [hfollows.source, hfollows.site] at hblames
    exact hblames.prepend
  · obtain ⟨later, hlater, hfollows'⟩ := hb
    exact ⟨events ++ later, hlater, hfollows.append hfollows'⟩

theorem Traces.map {f : α → β} (h : Traces c source R body)
    (hQ : ∀ a events, R a events → Q (f a) events) :
    Traces c source Q (body >>= fun a => pure (f a)) := by
  rw [← source.append_nil]
  refine h.bind fun a events c' ha _ => traces_pure ?_
  rw [events.append_nil]
  exact hQ a events ha

theorem Traces.mono {R' : α → List (Event Unit) → Prop} (h : Traces c source R body)
    (hR : ∀ a events, R a events → R' a events) : Traces c source R' body := by
  refine Meets.mono h (fun _ _ => id) fun a c' ha => ?_
  obtain ⟨events, hevents, hfollows⟩ := ha
  exact ⟨events, hR a events hevents, hfollows⟩

theorem Traces.unlabeled (placement : Placement) (excerpt : Excerpt) (h : Traces c source R body) :
    Traces c source R (unlabeled placement excerpt body) :=
  meets_unlabeled (fun _ hcause => absurd hcause Bool.false_ne_true) h

/-- A bracket that opens and closes with a single event each. -/
theorem Traces.bracket {enter leave : Context → Context} (opening closing : ∀ ε : Type, Event ε)
    (hopening : ∀ s : Surroundings, s.Allows (opening Unit))
    (hclosing : ∀ s : Surroundings, s.Allows (closing Unit))
    (henter : ∀ c, (enter c).toSite = c.toSite)
    (hleave : ∀ c, (leave c).toSite = c.toSite)
    (hopen : ∀ c ε, (enter c).surroundings = c.surroundings.after (opening ε))
    (hclose : ∀ c ε, (leave c).surroundings = c.surroundings.after (closing ε))
    (h : Traces (enter c) source (fun a events => R a (opening Unit :: events ++ [closing Unit]))
      body) :
    Traces c (opening Excerpt :: source ++ [closing Excerpt]) R (bracket enter leave body) := by
  have hfirst : c.Follows [opening Excerpt] [opening Unit] (enter c) :=
    .single opening (henter c) (hopening _) (hopen c)
  refine meets_bracket (Meets.mono h (fun fault _ hfault hcause => ?_) fun a c' ha => ?_)
  · have hblames := hfault hcause
    rw [hfirst.source, hfirst.site] at hblames
    exact hblames.prepend.append _
  · obtain ⟨events, hevents, hfollows⟩ := ha
    have hlast : c'.Follows [closing Excerpt] [closing Unit] (leave c') :=
      .single closing (hleave c') (hclosing _) (hclose c')
    exact ⟨_, hevents, hfirst.append (hfollows.append hlast)⟩

theorem Traces.inFrame
    (h : Traces c.enterFrame source (fun a events => R a (Event.inFrame events)) body) :
    Traces c (Event.inFrame source) R (inFrame body) :=
  .bracket (fun _ => .enterFrame) (fun _ => .leaveFrame) (fun _ => trivial) (fun _ => trivial)
    (fun _ => rfl) (fun _ => rfl) (fun c _ => c.surroundings_enterFrame)
    (fun c _ => c.surroundings_leaveFrame) h

theorem Traces.inRoot
    (h : Traces c.enterRoot source (fun a events => R a (Event.inFrame events)) body) :
    Traces c (Event.inFrame source) R (inRoot body) :=
  .bracket (fun _ => .enterFrame) (fun _ => .leaveFrame) (fun _ => trivial) (fun _ => trivial)
    (fun _ => rfl) (fun _ => rfl) (fun c _ => c.surroundings_enterRoot)
    (fun c _ => c.surroundings_leaveFrame) h

theorem Traces.inLoop {label : Option String}
    (h : Traces (c.enterLoop label) source
      (fun a events => R a (Event.inTarget ⟨label, true⟩ events)) body) :
    Traces c (Event.inTarget ⟨label, true⟩ source) R (inLoop label body) :=
  .bracket (fun _ => .enterTarget ⟨label, true⟩) (fun _ => .leaveTarget) (fun _ => trivial)
    (fun _ => trivial) (fun _ => rfl) (fun _ => rfl) (fun _ _ => rfl)
    (fun c _ => c.surroundings_leaveTarget) h

/-- Without a label nothing is entered, so the context depends on the label. -/
theorem Traces.inLabeled {label : Option String}
    (h : ∀ c', Traces c' source (fun a events => R a (Event.inLabeled label events)) body) :
    Traces c (Event.inLabeled label source) R (inLabeled label body) := by
  cases label with
  | none => exact h c
  | some label =>
      exact .bracket (fun _ => .enterTarget ⟨some label, false⟩) (fun _ => .leaveTarget)
        (fun _ => trivial) (fun _ => trivial) (fun _ => rfl) (fun _ => rfl) (fun _ _ => rfl)
        (fun c _ => c.surroundings_leaveTarget) (h _)

/-- What expressions compile to, when the result has the events of admitted trees. -/
theorem traces_ofView {outcome : View → Except Fault α} (exprs : List Expr)
    (hsource : source = exprs.flatMap Expr.events)
    (h : Breakpoint.Meets (fun fault => ∃ e ∈ exprs, c.view.Blames e fault)
      (fun a => ∃ events, R a events ∧
        ∀ event ∈ events, ∃ name, event = .refer name () ∧ c.view.visible name)
      (outcome c.view)) :
    Traces c source R (ofView outcome) := by
  have hstill : ∀ event ∈ source, c.surroundings.after event = c.surroundings := by
    intro event hevent
    rw [hsource] at hevent
    obtain ⟨e, -, hevent⟩ := List.mem_flatMap.1 hevent
    exact Expr.after_event hevent _
  refine meets_ofView (h.mono ?_ ?_)
  · intro fault hfault hcause
    obtain ⟨e, he, hblames⟩ := hfault
    obtain ⟨event, hevent, hrefuses⟩ := hblames.refuses hcause
    refine Surroundings.blames_of_mem hstill ?_ hrefuses
    rw [hsource]
    exact List.mem_flatMap.2 ⟨e, he, hevent⟩
  · intro a ha
    obtain ⟨events, hevents, hrefer⟩ := ha
    have hin : ∀ event ∈ events, c.surroundings.after event = c.surroundings ∧
        c.surroundings.Allows event := by
      intro event hevent
      obtain ⟨name, rfl, hvisible⟩ := hrefer event hevent
      exact ⟨rfl, (c.shows_iff_visible name).2 hvisible⟩
    refine ⟨events, hevents, rfl, Surroundings.obeyed_of_references hin, ?_, ?_⟩
    · exact (Surroundings.run_eq_self fun event hevent => (hin event hevent).1).symm
    · exact (Surroundings.run_eq_self hstill).symm

theorem traces_jump {check : Jumps → Except Fault Unit} {jump : Jump} {excerpt : Excerpt}
    (h : Breakpoint.Meets (c.surroundings.Refuses c.position.classes (.jump jump excerpt))
      (fun _ => c.surroundings.Receives jump) (check c.jumps)) :
    Traces c [.jump jump excerpt] (fun _ events => events = [.jump jump ()])
      (Lowering.jump check) := by
  refine meets_jump (h.mono (fun fault hfault _ => ?_) fun _ hreceives => ?_)
  · exact ⟨[], _, [], rfl, hfault⟩
  · exact ⟨_, rfl, rfl, ⟨hreceives, trivial⟩, rfl, rfl⟩

end Lowering

/-! ### Statements -/

section Statements

open Lowering

variable {c : Context}

/-- An expression, however it is used. -/
theorem traces_expr {f : View → Expr → Except Fault Tree} (e : Expr)
    (h : Breakpoint.Meets (c.view.Blames e) (Tree.Every c.view.Admits) (f c.view e)) :
    Traces c e.events (fun t events => events = t.events) (ofView fun v => f v e) := by
  refine traces_ofView [e] (by simp) (h.mono (fun _ hfault => ⟨e, by simp, hfault⟩) fun t ht => ?_)
  exact ⟨_, rfl, View.events_of_every_admits ht⟩

/-- A missing expression has no events. -/
theorem traces_option {f : View → Expr → Except Fault Tree} (e : Option Expr)
    (h : ∀ e, Breakpoint.Meets (c.view.Blames e) (Tree.Every c.view.Admits) (f c.view e)) :
    Traces c (e.toList.flatMap Expr.events) (fun tree events => events = Tree.eventsOfOption tree)
      (ofView fun v => e.mapM (f v)) := by
  refine traces_ofView e.toList rfl ?_
  cases e with
  | none => exact ⟨[], rfl, by simp⟩
  | some e =>
      apply ((h e).mono (fun fault hfault => ⟨e, by simp, hfault⟩) fun _ => id).bind
      intro t ht
      exact ⟨_, rfl, View.events_of_every_admits ht⟩

theorem lowerValues_traces (exprs : List Expr) :
    Traces c (exprs.flatMap Expr.events) (fun trees events => events = Tree.eventsOfList trees)
      (ofView fun v => v.lowerValues exprs) := by
  refine traces_ofView exprs rfl ((c.view.lowerValues_blames exprs).imp ?_)
  intro trees htrees
  refine ⟨_, rfl, fun event hevent => ?_⟩
  rw [Tree.eventsOfList_eq] at hevent
  obtain ⟨t, ht, hevent⟩ := List.mem_flatMap.1 hevent
  exact View.events_of_every_admits (htrees t ht) event hevent

theorem declare_traces (entry : LocalEntry) (text : String) :
    Traces c [.declare entry.name ⟨text, entry.span⟩]
      (fun _ events => events = [.declare entry.name ()] ∧ c.surroundings.frames ≠ [])
      (declare entry text) := by
  refine meets_declare ((c.arena.declare_meets entry text).mono ?_ ?_)
  · intro fault hfault hcause
    rcases hfault with hcause' | ⟨rfl, table, htable, other, hother, hname⟩
    · rw [hcause'] at hcause
      cases hcause
    · refine ⟨[], _, [], rfl, .redeclared ⟨table.map LocalEntry.name, ?_, ?_⟩⟩
      · simp [Context.surroundings, Option.mem_def.1 htable]
      · exact List.mem_map.2 ⟨other, hother, hname⟩
  · intro arena harena
    obtain ⟨table, rest, htables, hfresh, htables'⟩ := harena
    have hframes : c.surroundings.frames =
        table.map LocalEntry.name :: rest.map fun table => table.map LocalEntry.name := by
      simp [Context.surroundings, htables]
    have hafter : ({ c with arena } : Context).surroundings =
        { c.surroundings with frames := c.surroundings.frames.modifyHead (entry.name :: ·) } := by
      simp [Context.surroundings, htables, htables']
    refine ⟨_, ⟨rfl, by simp [hframes]⟩, rfl, ⟨?_, trivial⟩, hafter, hafter⟩
    rintro ⟨frame, hframe, hmem⟩
    rw [hframes] at hframe
    cases hframe
    obtain ⟨other, hother, hname⟩ := List.mem_map.1 hmem
    exact hfresh other hother hname

/-- A variable is declared before its initial value is read, and visible to it. -/
theorem lowerVar_traces (excerpt : Excerpt) (var : Declarator) :
    Traces c (var.events excerpt) (fun entry events => events = entry.events)
      (lowerVar excerpt var) := by
  refine Traces.bind (declare_traces _ _) fun _ events c' hevents hfollows => ?_
  obtain ⟨rfl, hframes⟩ := hevents
  have hvisible : c'.view.visible var.decl.name := by
    rw [← c'.shows_iff_visible, hfollows.tree]
    obtain ⟨frame, rest, hcons⟩ := List.exists_cons_of_ne_nil hframes
    refine ⟨var.decl.name :: frame, ?_, List.mem_cons_self⟩
    simp [Surroundings.after, hcons]
  refine Traces.map (R := fun init events => events = Tree.eventsOfOption init)
    (traces_ofView var.init.toList rfl ?_) fun init events hinit => ?_
  · cases hinit : var.init with
    | none => exact ⟨[], rfl, by simp⟩
    | some e =>
        apply ((c'.view.lowerInitial_blames var.decl.ty e).mono
          (fun fault hfault => ⟨e, by simp, hfault⟩) fun _ => id).bind
        intro value hvalue
        refine ⟨_, rfl, fun event hevent => ?_⟩
        rcases List.mem_cons.1 hevent with rfl | hevent
        · exact ⟨_, rfl, hvisible⟩
        · exact View.events_of_every_admits hvalue event hevent
  · subst hinit
    rfl

theorem lowerVars_traces (excerpt : Excerpt) (vars : List Declarator) :
    Traces c (vars.flatMap (Declarator.events excerpt))
      (fun entries events => events = LocalInit.eventsOfList entries) (lowerVars excerpt vars) := by
  induction vars generalizing c with
  | nil => exact traces_pure rfl
  | cons var rest ih =>
      rw [lowerVars, List.flatMap_cons]
      apply (lowerVar_traces excerpt var).bind
      intro entry events c' hentry _
      refine ih.map fun entries later hentries => ?_
      rw [hentry, hentries]
      rfl

/-- The body of a loop is read inside the target of the loop. -/
theorem loop_traces {label : Option String} {source : List (Event Excerpt)} {body : Lowering Tree}
    (h : ∀ c, Traces c source (fun t events => events = t.events) body) :
    Traces c (Event.inTarget ⟨label, true⟩ source)
      (fun t events => events = Event.inTarget ⟨label, true⟩ t.events) (inLoop label body) := by
  refine .inLoop ((h _).mono fun t events ht => ?_)
  rw [ht]

mutual

/-- Compiling a statement follows the source and the compiled tree. -/
theorem lowerStmt_traces : ∀ (placement : Placement) (s : Stmt) (c : Context),
    Traces c (s.events placement.label?) (fun t events => events = t.events)
      (lowerStmt placement s)
  | placement, .empty excerpt, c => by
      rw [lowerStmt, Stmt.events]
      -- The tree is an empty block, whose frame opens and closes at once.
      exact .unlabeled _ _ (meets_pure ⟨_, rfl, rfl, ⟨trivial, trivial, trivial⟩, rfl, rfl⟩)
  | placement, .expr excerpt e, c => by
      rw [lowerStmt, Stmt.events]
      exact .unlabeled _ _ (traces_expr e (c.view.lower_blames .value e))
  | placement, .decl excerpt vars, c => by
      rw [Stmt.events]
      cases placement with
      | listed =>
          rw [lowerStmt, lowerDecl]
          exact (lowerVars_traces excerpt vars).map fun entries events h => h
      | _ =>
          rw [lowerStmt]
          · exact .unlabeled _ _ (traces_refuse _ rfl)
          · simp
  | placement, .block excerpt stmts, c => by
      rw [lowerStmt, Stmt.events]
      refine .unlabeled _ _ (.inFrame ?_)
      refine (lowerItems_traces stmts c.enterFrame).map fun items events h => ?_
      rw [h, Tree.events, Tree.eventsOfList_eq, Tree.eventsOfList_eq, List.flatMap_map]
      rfl
  | placement, .ifElse excerpt condition thenBranch elseBranch, c => by
      rw [lowerStmt, Stmt.events]
      apply (traces_expr condition (c.view.lowerCondition_blames condition)).bind
      intro test events c' htest _
      refine Traces.map (R := fun branches later => later = Event.inLabeled placement.label?
        (branches.1.events ++ Tree.eventsOfOption branches.2)) (.inLabeled fun c'' => ?_) ?_
      · apply (lowerStmt_traces .single thenBranch c'').bind
        intro first events c' hfirst _
        refine (lowerElse_traces elseBranch c').map fun second later hsecond => ?_
        rw [hfirst, hsecond]
      · intro branches later hbranches
        rw [htest, hbranches, Tree.events]
  | placement, .whileLoop excerpt condition body, c => by
      rw [lowerStmt, Stmt.events]
      apply (traces_expr condition (c.view.lowerCondition_blames condition)).bind
      intro test events c' htest _
      refine Traces.map (loop_traces fun c => lowerStmt_traces .single body c) ?_
      intro round later hround
      rw [htest, hround, Tree.events]
  | placement, .doLoop excerpt body condition, c => by
      rw [lowerStmt, Stmt.events]
      apply (loop_traces fun c => lowerStmt_traces .single body c).bind
      intro round events c' hround _
      refine (traces_expr condition (c'.view.lowerCondition_blames condition)).map ?_
      intro test later htest
      rw [hround, htest, Tree.events]
  | placement, .forLoop excerpt init condition update body, c => by
      rw [lowerStmt, Stmt.events]
      refine .inFrame ?_
      apply (lowerItems_traces init c.enterFrame).bind
      intro first events c₁ hfirst _
      apply (traces_option condition c₁.view.lowerCondition_blames).bind
      intro test later c₂ htest _
      apply (lowerValues_traces update).bind
      intro next later' c₃ hnext _
      refine Traces.map (loop_traces fun c => lowerStmt_traces .single body c) ?_
      intro round last hround
      rw [hfirst, htest, hnext, hround, Tree.events]
  | placement, .breakTo excerpt label, c => by
      rw [lowerStmt, Stmt.events]
      refine .unlabeled _ _ (.map (traces_jump (c.checkBreak_meets label excerpt)) ?_)
      exact fun _ events h => h
  | placement, .continueTo excerpt label, c => by
      rw [lowerStmt, Stmt.events]
      refine .unlabeled _ _ (.map (traces_jump (c.checkContinue_meets label excerpt)) ?_)
      exact fun _ events h => h
  | placement, .returnValue excerpt value, c => by
      rw [lowerStmt, Stmt.events]
      refine .unlabeled _ _ (.map (traces_option value (c.view.lower_blames .value)) ?_)
      exact fun tree events h => h
  | placement, .throwValue excerpt value, c => by
      rw [lowerStmt, Stmt.events]
      refine .unlabeled _ _ (.map (traces_expr value (c.view.lower_blames .value value)) ?_)
      exact fun tree events h => h
  | placement, .labeled excerpt label body, c => by
      rw [lowerStmt, Stmt.events]
      exact .unlabeled _ _ (lowerStmt_traces (.labeled label) body c)
  | placement, .unsupported excerpt kind, c => by
      rw [lowerStmt, Stmt.events]
      exact .unlabeled _ _ (traces_refuse _ rfl)

theorem lowerElse_traces : ∀ (s : Option Stmt) (c : Context),
    Traces c (Stmt.eventsOfOption s) (fun tree events => events = Tree.eventsOfOption tree)
      (lowerElse s)
  | none, c => by
      rw [lowerElse, Stmt.eventsOfOption]
      exact traces_pure rfl
  | some s, c => by
      rw [lowerElse, Stmt.eventsOfOption]
      exact (lowerStmt_traces .single s c).map fun t events h => h

theorem lowerItems_traces : ∀ (stmts : List Stmt) (c : Context),
    Traces c (Stmt.eventsOfList stmts) (fun trees events => events = Tree.eventsOfList trees)
      (lowerItems stmts)
  | [], c => by
      rw [lowerItems, Stmt.eventsOfList]
      exact traces_pure rfl
  | s :: rest, c => by
      rw [lowerItems, Stmt.eventsOfList]
      apply (lowerStmt_traces .listed s c).bind
      intro t events c' ht _
      refine (lowerItems_traces rest c').map fun trees later htrees => ?_
      rw [ht, htrees, Tree.eventsOfList]

end

theorem lowerFragment_traces (stmts : List Stmt) (c : Context) :
    Traces c (Stmt.eventsOfFragment stmts) (fun t events => events = t.events)
      (lowerFragment stmts) := by
  refine .inRoot ((lowerItems_traces stmts c.enterRoot).map fun items events h => ?_)
  rw [h, Tree.events]

end Statements

end Breakpoint
