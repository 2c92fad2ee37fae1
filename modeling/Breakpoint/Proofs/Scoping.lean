import Breakpoint.Proofs.Trace

/-!
Declared locals are well scoped. In a compiled statement list every reference to a declared local
finds the local in an open frame, and no frame declares a name twice; a statement list that is
refused for a name has a declaration or a reference that is out of order where it stands.
-/

namespace Breakpoint

/-- The locals of a compiled statement list are well scoped, and a refusal for a name is never
spurious: a redeclaration blames a name that its own frame has already, and an inaccessible local is
one that no open frame declares or one of a method whose class is not around the position. -/
theorem fragment_locals_scoped (site : Site) (stmts : List Stmt) :
    (∀ t, compileFragment site stmts = .ok t →
      (∀ name, .localVar name .fragment ∈ t.nodes → .refer name () ∈ t.events) ∧
      (∀ before name after, t.events = before ++ .refer name () :: after →
        (Surroundings.run {} before).Shows name) ∧
      (∀ before name after, t.events = before ++ .declare name () :: after →
        ¬(Surroundings.run {} before).Declares name)) ∧
    (∀ name excerpt,
      compileFragment site stmts = .error ⟨.variableRedeclaration name, excerpt⟩ →
        ∃ before after, Stmt.eventsOfFragment stmts = before ++ .declare name excerpt :: after ∧
          (Surroundings.run {} before).Declares name) ∧
    (∀ name excerpt,
      compileFragment site stmts = .error ⟨.localNotAccessible name, excerpt⟩ →
        ∃ before event after, Stmt.eventsOfFragment stmts = before ++ event :: after ∧
          (event = .refer name excerpt ∧ ¬(Surroundings.run {} before).Shows name ∨
            ∃ declaring, event = .capture name declaring excerpt ∧
              declaring ∉ site.position.classes)) := by
  have houtcome := (lowerFragment_traces stmts (Context.start site)).outcome
  refine ⟨fun t ht => ?_, fun name excerpt herror => ?_, fun name excerpt herror => ?_⟩
  · have hobeyed := houtcome.of_ok ht
    refine ⟨fun name hname => Tree.event_mem_events hname rfl, ?_, ?_⟩
    · intro before name after hevents
      rw [hevents] at hobeyed
      exact hobeyed.allows
    · intro before name after hevents
      rw [hevents] at hobeyed
      exact hobeyed.allows
  · obtain ⟨before, event, after, hevents, hrefuses⟩ := houtcome.of_error herror rfl
    cases hrefuses with
    | redeclared h => exact ⟨before, after, hevents, h⟩
    | missed h => cases h
  · obtain ⟨before, event, after, hevents, hrefuses⟩ := houtcome.of_error herror rfl
    refine ⟨before, event, after, hevents, ?_⟩
    cases hrefuses with
    | hidden h => exact .inl ⟨rfl, h⟩
    | foreign h => exact .inr ⟨_, rfl, h⟩
    | missed h => cases h

/-- A declaration of `x`. -/
def Stmt.declareX : Stmt :=
  .decl ⟨"int x = 1;", {}⟩
    [⟨{ name := "x", ty := .int }, some (.literal { ty? := some .int } (.int 1)), {}⟩]

/-- A reference to `x`. -/
def Stmt.referToX : Stmt :=
  .expr {} (.name ⟨some .int, "x", {}⟩ none "x" (.localVar { name := "x", ty := .int }))

/-- A name may be declared again in a frame inside its own, but neither in its own frame nor may it
be referred to outside of it. -/
theorem fragment_locals_scoped_x :
    (∃ t, compileFragment ⟨.empty, .detached, {}⟩ [.declareX, .block {} [.declareX]] = .ok t ∧
      ∀ before name after, t.events = before ++ .declare name () :: after →
        ¬(Surroundings.run {} before).Declares name) ∧
    (compileFragment ⟨.empty, .detached, {}⟩ [.declareX, .declareX] =
        .error ⟨.variableRedeclaration "x", "int x = 1;", {}⟩ ∧
      ∃ before after, Stmt.eventsOfFragment [.declareX, .declareX] =
        before ++ .declare "x" ⟨"int x = 1;", {}⟩ :: after ∧
          (Surroundings.run {} before).Declares "x") ∧
    compileFragment ⟨.empty, .detached, {}⟩ [.block {} [.declareX], .referToX] =
        .error ⟨.localNotAccessible "x", "x", {}⟩ ∧
      ∃ before event after, Stmt.eventsOfFragment [.block {} [.declareX], .referToX] =
        before ++ event :: after ∧ (event = .refer "x" ⟨"x", {}⟩ ∧
          ¬(Surroundings.run {} before).Shows "x" ∨ ∃ declaring,
            event = .capture "x" declaring ⟨"x", {}⟩ ∧ declaring ∉ Position.detached.classes) := by
  have hhidden : compileFragment ⟨.empty, .detached, {}⟩ [.block {} [.declareX], .referToX] =
      .error ⟨.localNotAccessible "x", "x", {}⟩ := by with_unfolding_all rfl
  refine ⟨⟨_, rfl, ?_⟩, ⟨rfl, ?_⟩, hhidden, ?_⟩
  · exact ((fragment_locals_scoped ⟨.empty, .detached, {}⟩
      [.declareX, .block {} [.declareX]]).1 _ rfl).2.2
  · exact (fragment_locals_scoped ⟨.empty, .detached, {}⟩ [.declareX, .declareX]).2.1 _ _ rfl
  · exact (fragment_locals_scoped ⟨.empty, .detached, {}⟩ _).2.2 _ _ hhidden

end Breakpoint
