import Breakpoint.Proofs.Nodes
import Mathlib.Tactic.Common

/-!
Code read in order. Reading a tree or a statement from left to right meets frames and jump targets
that open and close, declarations, references and jumps. Reading alone says which names and targets
surround each of these events, and so which of them are in order and which are not: no compilation
takes part in it.
-/

namespace Breakpoint

/-- A jump and the label it names. -/
inductive Jump where
  | breakTo (label : Option String)
  | continueTo (label : Option String)
deriving DecidableEq, Repr

/-- The label of a jump. -/
def Jump.label? : Jump → Option String
  | breakTo label | continueTo label => label

/-- What is met when code is read in order, with `ε` for what is known of its place. -/
inductive Event (ε : Type) where
  /-- A frame opens. -/
  | enterFrame
  /-- The innermost frame closes. -/
  | leaveFrame
  /-- A name is declared in the innermost frame. -/
  | declare (name : String) (place : ε)
  /-- A local that the code declares is referred to. -/
  | refer (name : String) (place : ε)
  /-- A local of a method of a class is referred to. -/
  | capture (name : String) (declaring : ClassId) (place : ε)
  /-- A jump target opens. -/
  | enterTarget (target : JumpTarget)
  /-- The innermost jump target closes. -/
  | leaveTarget
  /-- A jump is made. -/
  | jump (jump : Jump) (place : ε)
deriving DecidableEq, Repr

/-- The names of the open frames and the open jump targets, innermost first. -/
structure Surroundings where
  frames : List (List String) := []
  targets : List JumpTarget := []
deriving DecidableEq, Repr

namespace Surroundings

variable {ε : Type} {s : Surroundings} {events later : List (Event ε)}

/-- The surroundings after an event. -/
def after (s : Surroundings) : Event ε → Surroundings
  | .enterFrame => { s with frames := [] :: s.frames }
  | .leaveFrame => { s with frames := s.frames.tail }
  | .declare name _ => { s with frames := s.frames.modifyHead (name :: ·) }
  | .enterTarget target => { s with targets := target :: s.targets }
  | .leaveTarget => { s with targets := s.targets.tail }
  | .refer .. | .capture .. | .jump .. => s

/-- The surroundings after several events. -/
def run (s : Surroundings) (events : List (Event ε)) : Surroundings := events.foldl after s

/-- The innermost frame declares the name. -/
def Declares (s : Surroundings) (name : String) : Prop := ∃ frame ∈ s.frames.head?, name ∈ frame

/-- Some open frame declares the name. -/
def Shows (s : Surroundings) (name : String) : Prop := ∃ frame ∈ s.frames, name ∈ frame

/-- There is a target that can receive the jump. Without a label that is a loop, with one the
innermost target of that label, which has to be a loop if the jump goes to its next round. -/
def Receives (s : Surroundings) : Jump → Prop
  | .breakTo none | .continueTo none => ∃ target ∈ s.targets, target.isLoop
  | .breakTo (some label) => ∃ target ∈ s.targets, target.label = some label
  | .continueTo (some label) => ∃ inner target outer, s.targets = inner ++ target :: outer ∧
      (∀ other ∈ inner, other.label ≠ some label) ∧ target.label = some label ∧ target.isLoop

/-- The event is in order here. -/
def Allows (s : Surroundings) : Event ε → Prop
  | .declare name _ => ¬s.Declares name
  | .refer name _ => s.Shows name
  | .jump jump _ => s.Receives jump
  | .enterFrame | .leaveFrame | .capture .. | .enterTarget _ | .leaveTarget => True

/-- Every event is in order where it is met. -/
def Obeyed (s : Surroundings) : List (Event ε) → Prop
  | [] => True
  | event :: rest => s.Allows event ∧ (s.after event).Obeyed rest

/-- There is no target that can receive the jump, for the reason that the cause gives. -/
inductive Misses (s : Surroundings) : Jump → Cause → Prop where
  | breakOutsideLoop (h : ∀ target ∈ s.targets, ¬target.isLoop) :
      Misses s (.breakTo none) .breakOutsideLoop
  | continueOutsideLoop (h : ∀ target ∈ s.targets, ¬target.isLoop) :
      Misses s (.continueTo none) .continueOutsideLoop
  | undefinedLabel {jump : Jump} {label : String} (hlabel : jump.label? = some label)
      (h : ∀ target ∈ s.targets, target.label ≠ some label) :
      Misses s jump (.undefinedLabel label)
  | notALoopLabel {label : String} {inner outer : List JumpTarget} {target : JumpTarget}
      (htargets : s.targets = inner ++ target :: outer)
      (hinner : ∀ other ∈ inner, other.label ≠ some label) (hlabel : target.label = some label)
      (h : ¬target.isLoop) : Misses s (.continueTo (some label)) (.notALoopLabel label)

/-- The event is out of order here, at a position inside `classes`, in the way that the fault says,
and the fault blames its place. -/
inductive Refuses (classes : List ClassId) (s : Surroundings) : Event Excerpt → Fault → Prop where
  | redeclared {name : String} {place : Excerpt} (h : s.Declares name) :
      Refuses classes s (.declare name place) ⟨.variableRedeclaration name, place⟩
  | hidden {name : String} {place : Excerpt} (h : ¬s.Shows name) :
      Refuses classes s (.refer name place) ⟨.localNotAccessible name, place⟩
  | foreign {name : String} {declaring : ClassId} {place : Excerpt} (h : declaring ∉ classes) :
      Refuses classes s (.capture name declaring place) ⟨.localNotAccessible name, place⟩
  | missed {jump : Jump} {cause : Cause} {place : Excerpt} (h : s.Misses jump cause) :
      Refuses classes s (.jump jump place) ⟨cause, place⟩

/-- The fault refuses an event where it is met. -/
def Blames (classes : List ClassId) (s : Surroundings) (events : List (Event Excerpt))
    (fault : Fault) : Prop :=
  ∃ before event after, events = before ++ event :: after ∧
    (s.run before).Refuses classes event fault

@[simp] theorem run_nil (s : Surroundings) : s.run ([] : List (Event ε)) = s := rfl

@[simp] theorem run_cons (s : Surroundings) (event : Event ε) (rest : List (Event ε)) :
    s.run (event :: rest) = (s.after event).run rest := rfl

@[simp] theorem run_append (s : Surroundings) (events later : List (Event ε)) :
    s.run (events ++ later) = (s.run events).run later :=
  List.foldl_append

theorem Obeyed.append (h : s.Obeyed events) (hlater : (s.run events).Obeyed later) :
    s.Obeyed (events ++ later) := by
  induction events generalizing s with
  | nil => exact hlater
  | cons event rest ih => exact ⟨h.1, ih h.2 hlater⟩

/-- An event is in order after the events before it. -/
theorem Obeyed.allows {before : List (Event ε)} {event : Event ε}
    (h : s.Obeyed (before ++ event :: later)) : (s.run before).Allows event := by
  induction before generalizing s with
  | nil => exact h.1
  | cons first rest ih => exact ih h.2

variable {classes : List ClassId} {source rest : List (Event Excerpt)} {fault : Fault}

theorem Blames.append (h : s.Blames classes source fault) (rest : List (Event Excerpt)) :
    s.Blames classes (source ++ rest) fault := by
  obtain ⟨before, event, after, rfl, hrefuses⟩ := h
  exact ⟨before, event, after ++ rest, by simp, hrefuses⟩

theorem Blames.prepend (h : (s.run source).Blames classes rest fault) :
    s.Blames classes (source ++ rest) fault := by
  obtain ⟨before, event, after, rfl, hrefuses⟩ := h
  refine ⟨source ++ before, event, after, by simp, ?_⟩
  rwa [run_append]

end Surroundings

namespace Event

variable {ε : Type}

/-- The events inside a frame. -/
def inFrame (events : List (Event ε)) : List (Event ε) := .enterFrame :: events ++ [.leaveFrame]

/-- The events inside a jump target. -/
def inTarget (target : JumpTarget) (events : List (Event ε)) : List (Event ε) :=
  .enterTarget target :: events ++ [.leaveTarget]

/-- The events behind a label, if there is one, in front of what is no loop. -/
def inLabeled (label : Option String) (events : List (Event ε)) : List (Event ε) :=
  match label with
  | none => events
  | some label => inTarget ⟨some label, false⟩ events

theorem subset_inLabeled (label : Option String) (events : List (Event ε)) :
    events ⊆ inLabeled label events := by
  cases label with
  | none => exact List.Subset.refl events
  | some label => exact fun event h => by simp [inLabeled, inTarget, h]

end Event

mutual

/-- The events of a tree. A list of statements, a block and a loop with a header have a frame of
their own; the body of a loop and the branches of a labelled choice are inside a jump target. -/
def Tree.events : Tree → List (Event Unit)
  | .localVar name .fragment => [.refer name ()]
  | .literal .. | .localVar .. | .thisAt _ | .superAt _ | .typeRef _ | .classObject _ => []
  | .field object _ _ => object.events
  | .call object _ args => object.events ++ Tree.eventsOfList args
  | .newInstance _ _ args => Tree.eventsOfList args
  | .newArray _ dimension elements =>
    Tree.eventsOfOption dimension ++ Tree.eventsOfListOption elements
  | .element array index => array.events ++ index.events
  | .assign target value _ => target.events ++ value.events
  | .binary _ left right _ => left.events ++ right.events
  | .unary _ operand _ | .instanceOf operand _ | .cast operand _ | .box operand _
  | .unbox operand _ | .pin operand | .throwValue operand => operand.events
  | .conditional condition thenValue elseValue =>
    condition.events ++ (thenValue.events ++ elseValue.events)
  | .block stmts | .fragment stmts => Event.inFrame (Tree.eventsOfList stmts)
  | .declare locals => LocalInit.eventsOfList locals
  | .ifElse label condition thenBranch elseBranch =>
    condition.events ++
      Event.inLabeled label (thenBranch.events ++ Tree.eventsOfOption elseBranch)
  | .whileLoop label condition body =>
    condition.events ++ Event.inTarget ⟨label, true⟩ body.events
  | .doLoop label body condition =>
    Event.inTarget ⟨label, true⟩ body.events ++ condition.events
  | .forLoop label init condition update body =>
    Event.inFrame (Tree.eventsOfList init ++ (Tree.eventsOfOption condition ++
      (Tree.eventsOfList update ++ Event.inTarget ⟨label, true⟩ body.events)))
  | .breakTo label => [.jump (.breakTo label) ()]
  | .continueTo label => [.jump (.continueTo label) ()]
  | .returnValue value => Tree.eventsOfOption value

/-- The events of several trees, one tree after the other. -/
def Tree.eventsOfList : List Tree → List (Event Unit)
  | [] => []
  | t :: rest => t.events ++ Tree.eventsOfList rest

/-- The events of a tree that may be missing. -/
def Tree.eventsOfOption : Option Tree → List (Event Unit)
  | none => []
  | some t => t.events

/-- The events of a list that may be missing. -/
def Tree.eventsOfListOption : Option (List Tree) → List (Event Unit)
  | none => []
  | some trees => Tree.eventsOfList trees

/-- The events of a declared variable, which is declared before its initial value is read. -/
def LocalInit.events : LocalInit → List (Event Unit)
  | .mk name _ zero init => .declare name () :: (zero.events ++ Tree.eventsOfOption init)

/-- The events of several declared variables. -/
def LocalInit.eventsOfList : List LocalInit → List (Event Unit)
  | [] => []
  | entry :: rest => entry.events ++ LocalInit.eventsOfList rest

end

namespace Tree

theorem eventsOfList_eq (trees : List Tree) : eventsOfList trees = trees.flatMap events := by
  induction trees with
  | nil => rfl
  | cons t rest ih => rw [eventsOfList, ih, List.flatMap_cons]

theorem eventsOfOption_eq (t : Option Tree) : eventsOfOption t = t.toList.flatMap events := by
  cases t with
  | none => rfl
  | some t => simp [eventsOfOption]

theorem eventsOfListOption_eq (trees : Option (List Tree)) :
    eventsOfListOption trees = (trees.getD []).flatMap events := by
  cases trees with
  | none => rfl
  | some trees => exact eventsOfList_eq trees

theorem events_subset_eventsOfList {entries : List LocalInit} {t : Tree}
    (ht : t ∈ entries.flatMap LocalInit.trees) : t.events ⊆ LocalInit.eventsOfList entries := by
  induction entries with
  | nil => cases ht
  | cons entry rest ih =>
      rw [LocalInit.eventsOfList]
      rw [List.flatMap_cons] at ht
      rcases List.mem_append.1 ht with ht | ht
      · refine List.subset_append_of_subset_left _ ?_
        cases entry with
        | mk name ty zero init =>
            rw [LocalInit.events, eventsOfOption_eq]
            intro event hevent
            rcases List.mem_cons.1 ht with rfl | ht
            · simp [hevent]
            · simp only [List.mem_cons, List.mem_append, List.mem_flatMap]
              exact .inr (.inr ⟨t, ht, hevent⟩)
      · exact List.subset_append_of_subset_right _ (ih ht)

/-- The event that a node is by itself. -/
def event? : Tree → Option (Event Unit)
  | .localVar name .fragment => some (.refer name ())
  | .breakTo label => some (.jump (.breakTo label) ())
  | .continueTo label => some (.jump (.continueTo label) ())
  | _ => none

theorem events_subset_of_mem_children {s t : Tree} (hs : s ∈ t.children) : s.events ⊆ t.events := by
  intro event hevent
  have hchild : event ∈ t.children.flatMap events := List.mem_flatMap.2 ⟨s, hs, hevent⟩
  cases t with
  | declare locals => exact events_subset_eventsOfList hs hevent
  | ifElse label condition thenBranch elseBranch =>
      rw [events]
      simp only [children, List.flatMap_cons, ← eventsOfOption_eq, List.mem_append] at hchild
      rcases hchild with h | h
      · exact List.mem_append_left _ h
      · exact List.mem_append_right _ (Event.subset_inLabeled _ _ (List.mem_append.2 h))
  | literal | localVar | thisAt | superAt | typeRef | classObject | breakTo | continueTo =>
      exact absurd hs List.not_mem_nil
  | block | fragment | whileLoop | doLoop | forLoop =>
      simp only [events, children, eventsOfList_eq, eventsOfOption_eq, Event.inFrame,
        Event.inTarget, List.flatMap_cons, List.flatMap_append, List.flatMap_nil, List.mem_append,
        List.mem_cons, List.append_nil] at hchild ⊢
      tauto
  | _ =>
      simpa [events, children, eventsOfList_eq, eventsOfOption_eq, eventsOfListOption_eq]
        using hchild

theorem mem_events_of_event? {t : Tree} {event : Event Unit} (h : t.event? = some event) :
    event ∈ t.events := by
  unfold event? at h
  split at h
  · cases h
    exact List.mem_cons_self
  · cases h
    exact List.mem_cons_self
  · cases h
    exact List.mem_cons_self
  · cases h

/-- Every reference and every jump of a tree is met when the tree is read. -/
theorem event_mem_events {n t : Tree} {event : Event Unit} (hn : n ∈ t.nodes)
    (h : n.event? = some event) : event ∈ t.events := by
  induction t using children_induction with
  | step t ih =>
      rw [nodes_eq] at hn
      rcases List.mem_cons.1 hn with rfl | hn
      · exact mem_events_of_event? h
      · obtain ⟨s, hs, hn⟩ := List.mem_flatMap.1 hn
        exact events_subset_of_mem_children hs (ih s hs hn)

end Tree

/-- The event of a name that refers to a local, where it is written. -/
def Expr.event? : Expr → Option (Event Excerpt)
  | .name note _ _ (.localVar d) =>
    match d.origin with
    | .fragment => some (.refer d.name note.excerpt)
    | .method declaring => some (.capture d.name declaring note.excerpt)
  | _ => none

/-- The events of an expression. -/
def Expr.events (e : Expr) : List (Event Excerpt) := e.nodes.filterMap Expr.event?

/-- The events of a declared variable, which is declared before its initial value is read. -/
def Declarator.events (excerpt : Excerpt) (var : Declarator) : List (Event Excerpt) :=
  .declare var.decl.name ⟨excerpt.text, var.span.orElse excerpt.span⟩ ::
    var.init.toList.flatMap Expr.events

mutual

/-- The events of a statement with the given label in front of it. -/
def Stmt.events : Option String → Stmt → List (Event Excerpt)
  | _, .empty _ | _, .unsupported .. => []
  | _, .expr _ e | _, .throwValue _ e => e.events
  | _, .decl excerpt vars => vars.flatMap (Declarator.events excerpt)
  | _, .block _ stmts => Event.inFrame (Stmt.eventsOfList stmts)
  | label, .ifElse _ condition thenBranch elseBranch =>
    condition.events ++
      Event.inLabeled label (thenBranch.events none ++ Stmt.eventsOfOption elseBranch)
  | label, .whileLoop _ condition body =>
    condition.events ++ Event.inTarget ⟨label, true⟩ (body.events none)
  | label, .doLoop _ body condition =>
    Event.inTarget ⟨label, true⟩ (body.events none) ++ condition.events
  | label, .forLoop _ init condition update body =>
    Event.inFrame (Stmt.eventsOfList init ++ (condition.toList.flatMap Expr.events ++
      (update.flatMap Expr.events ++ Event.inTarget ⟨label, true⟩ (body.events none))))
  | _, .breakTo excerpt target => [.jump (.breakTo target) excerpt]
  | _, .continueTo excerpt target => [.jump (.continueTo target) excerpt]
  | _, .returnValue _ value => value.toList.flatMap Expr.events
  | _, .labeled _ label body => body.events (some label)

/-- The events of several statements, one statement after the other. -/
def Stmt.eventsOfList : List Stmt → List (Event Excerpt)
  | [] => []
  | s :: rest => s.events none ++ Stmt.eventsOfList rest

/-- The events of a statement that may be missing. -/
def Stmt.eventsOfOption : Option Stmt → List (Event Excerpt)
  | none => []
  | some s => s.events none

end

/-- The events of a whole statement list, in a frame of its own. -/
def Stmt.eventsOfFragment (stmts : List Stmt) : List (Event Excerpt) :=
  Event.inFrame (Stmt.eventsOfList stmts)

end Breakpoint
