import Breakpoint.Proofs.Trace

/-!
Jumps land. In a compiled statement every jump stands inside a target that can receive it, and a
statement that is refused for a jump contains a jump that no target around it can receive.
-/

namespace Breakpoint

/-- Every jump of the tree is met when the tree is read, and where it is met there is a target that
can receive it. -/
def Tree.JumpsLand (t : Tree) : Prop :=
  (∀ label, .breakTo label ∈ t.nodes → .jump (.breakTo label) () ∈ t.events) ∧
  (∀ label, .continueTo label ∈ t.nodes → .jump (.continueTo label) () ∈ t.events) ∧
  ∀ before jump after, t.events = before ++ .jump jump () :: after →
    (Surroundings.run {} before).Receives jump

/-- The fault blames a jump of the source that no target around it can receive. -/
def Fault.BlamesJump (fault : Fault) (source : List (Event Excerpt)) : Prop :=
  ∃ before jump after, source = before ++ .jump jump fault.excerpt :: after ∧
    (Surroundings.run {} before).Misses jump fault.cause

theorem Tree.jumpsLand_of_obeyed {t : Tree} (h : Surroundings.Obeyed {} t.events) :
    t.JumpsLand := by
  refine ⟨fun label hlabel => event_mem_events hlabel rfl, fun label hlabel =>
    event_mem_events hlabel rfl, ?_⟩
  intro before jump after hevents
  rw [hevents] at h
  exact h.allows

theorem Cause.ofNesting_of_ofJump {cause : Cause} (h : cause.ofJump) : cause.ofNesting := by
  cases cause with
  | breakOutsideLoop | continueOutsideLoop | undefinedLabel | notALoopLabel => rfl
  | _ => cases h

theorem Surroundings.Blames.blamesJump {classes : List ClassId} {source : List (Event Excerpt)}
    {fault : Fault} (h : Blames classes {} source fault) (hcause : fault.cause.ofJump) :
    fault.BlamesJump source := by
  obtain ⟨before, event, after, hevents, hrefuses⟩ := h
  cases hrefuses with
  | missed hmisses => exact ⟨before, _, after, hevents, hmisses⟩
  | _ => cases hcause

/-- Every jump of a compiled statement or statement list lands, and a refusal for a jump is never
spurious: it blames a jump of the source and says why no target around it can receive it. -/
theorem jumps_land (site : Site) :
    (∀ s t, compileStmt site s = .ok t → t.JumpsLand) ∧
    (∀ stmts t, compileFragment site stmts = .ok t → t.JumpsLand) ∧
    (∀ s fault, compileStmt site s = .error fault → fault.cause.ofJump →
      fault.BlamesJump (s.events none)) ∧
    (∀ stmts fault, compileFragment site stmts = .error fault → fault.cause.ofJump →
      fault.BlamesJump (Stmt.eventsOfFragment stmts)) := by
  have hstmt (s : Stmt) := (lowerStmt_traces .single s (Context.start site)).outcome
  have hfragment (stmts : List Stmt) := (lowerFragment_traces stmts (Context.start site)).outcome
  refine ⟨fun s t ht => ?_, fun stmts t ht => ?_, fun s fault hfault hcause => ?_,
    fun stmts fault hfault hcause => ?_⟩
  · exact Tree.jumpsLand_of_obeyed ((hstmt s).of_ok ht)
  · exact Tree.jumpsLand_of_obeyed ((hfragment stmts).of_ok ht)
  · have hblames := (hstmt s).of_error hfault (Cause.ofNesting_of_ofJump hcause)
    exact hblames.blamesJump hcause
  · have hblames := (hfragment stmts).of_error hfault (Cause.ofNesting_of_ofJump hcause)
    exact hblames.blamesJump hcause

/-- A labelled loop around a jump to its next round. -/
def Stmt.labeledLoop : Stmt :=
  .labeled {} "outer" (.whileLoop {} (.literal { ty? := some .boolean } (.bool true))
    (.continueTo ⟨"continue outer", {}⟩ (some "outer")))

/-- A labelled choice around a jump to its next round. -/
def Stmt.labeledChoice : Stmt :=
  .labeled {} "outer" (.ifElse {} (.literal { ty? := some .boolean } (.bool true))
    (.continueTo ⟨"continue outer", {}⟩ (some "outer")) none)

/-- The jump of the loop lands; that of the choice is refused, because a choice has no rounds. -/
theorem jumps_land_labeled :
    (∃ t, compileStmt ⟨.empty, .detached, {}⟩ .labeledLoop = .ok t ∧ t.JumpsLand) ∧
    compileStmt ⟨.empty, .detached, {}⟩ .labeledChoice =
      .error ⟨.notALoopLabel "outer", "continue outer", {}⟩ ∧
    Fault.BlamesJump ⟨.notALoopLabel "outer", "continue outer", {}⟩
      (Stmt.labeledChoice.events none) := by
  have hland := jumps_land ⟨.empty, .detached, {}⟩
  refine ⟨⟨_, rfl, hland.1 .labeledLoop _ rfl⟩, rfl, ?_⟩
  exact hland.2.2.1 .labeledChoice _ rfl rfl

end Breakpoint
