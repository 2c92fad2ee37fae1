import Breakpoint.Hierarchy
import Mathlib.Logic.Relation
import Mathlib.Tactic.Common

/-!
Inheritance as reachability. The search for a superclass expands every class once, the one that
became pending last first; what it answers is whether some path of superclass and interface links
leads to the goal. Nothing is asked of the links: they may form cycles, and they may lead to classes
that are not known.
-/

namespace Breakpoint.Hierarchy

variable {h : Hierarchy} {goal id sub sup : ClassId} {seen pending : List ClassId}

/-- A class is known and names another as its superclass or as one of its interfaces. -/
def Extends (h : Hierarchy) (sub sup : ClassId) : Prop :=
  ∃ c, h.get? sub = some c ∧ (c.superclass = some sup ∨ sup ∈ c.interfaces)

/-- A path of superclass and interface links, possibly of no links, leads from one class to the
other. -/
def Inherits (h : Hierarchy) : ClassId → ClassId → Prop := Relation.ReflTransGen h.Extends

theorem mem_parents_iff : sup ∈ h.parents sub ↔ h.Extends sub sup := by
  unfold parents Extends
  cases h.get? sub with
  | none => simp
  | some c => simp

/-- The classes in `seen` are done with: none of them is the goal, and each class that they extend
is done with or still pending. -/
def Expanded (h : Hierarchy) (goal : ClassId) (seen pending : List ClassId) : Prop :=
  ∀ id ∈ seen, id ≠ goal ∧ ∀ sup, h.Extends id sup → sup ∈ seen ∨ sup ∈ pending

/-- A path from an expanded class to the goal passes a pending one. -/
theorem Expanded.exists_pending (hseen : h.Expanded goal seen pending) (hid : id ∈ seen)
    (hpath : h.Inherits id goal) : ∃ sup ∈ pending, h.Inherits sup goal := by
  induction hpath using Relation.ReflTransGen.head_induction_on with
  | refl => exact absurd rfl (hseen goal hid).1
  | @head id sup hstep hrest ih =>
      rcases (hseen id hid).2 sup hstep with hsup | hsup
      · exact ih hsup
      · exact ⟨sup, hsup, hrest⟩

theorem Expanded.skip (hseen : h.Expanded goal seen (id :: pending)) (hid : id ∈ seen) :
    h.Expanded goal seen pending := by
  intro sub hsub
  refine ⟨(hseen sub hsub).1, fun sup hsup => ?_⟩
  rcases (hseen sub hsub).2 sup hsup with hmem | hmem
  · exact .inl hmem
  · rcases List.mem_cons.1 hmem with rfl | hmem
    · exact .inl hid
    · exact .inr hmem

theorem Expanded.expand (hseen : h.Expanded goal seen (id :: pending)) (hid : id ≠ goal) :
    h.Expanded goal (id :: seen) ((h.parents id).reverse ++ pending) := by
  intro sub hsub
  rcases List.mem_cons.1 hsub with rfl | hsub
  · refine ⟨hid, fun sup hsup => .inr ?_⟩
    exact List.mem_append_left _ (List.mem_reverse.2 (mem_parents_iff.2 hsup))
  · refine ⟨(hseen sub hsub).1, fun sup hsup => ?_⟩
    rcases (hseen sub hsub).2 sup hsup with hmem | hmem
    · exact .inl (List.mem_cons_of_mem _ hmem)
    · rcases List.mem_cons.1 hmem with rfl | hmem
      · exact .inl List.mem_cons_self
      · exact .inr (List.mem_append_right _ hmem)

/-- The search succeeds if and only if a path leads from a pending class to the goal. -/
theorem reaches_iff (hseen : h.Expanded goal seen pending) :
    h.reaches goal seen pending ↔ ∃ id ∈ pending, h.Inherits id goal := by
  -- Along the recursion of the search, with what is expanded as the invariant.
  fun_induction h.reaches goal seen pending with
  | case1 => simp
  | case2 seen pending => exact iff_of_true rfl ⟨goal, List.mem_cons_self, .refl⟩
  | case3 seen id pending hne hmem ih =>
      rw [ih (hseen.skip hmem)]
      constructor
      · rintro ⟨sup, hsup, hpath⟩
        exact ⟨sup, List.mem_cons_of_mem _ hsup, hpath⟩
      · rintro ⟨sup, hsup, hpath⟩
        rcases List.mem_cons.1 hsup with rfl | hsup
        · exact (hseen.skip hmem).exists_pending hmem hpath
        · exact ⟨sup, hsup, hpath⟩
  | case4 seen id pending hne hfresh ih =>
      rw [ih (hseen.expand hne)]
      constructor
      · rintro ⟨sup, hsup, hpath⟩
        rcases List.mem_append.1 hsup with hsup | hsup
        · have hstep := mem_parents_iff.1 (List.mem_reverse.1 hsup)
          exact ⟨id, List.mem_cons_self, .head hstep hpath⟩
        · exact ⟨sup, List.mem_cons_of_mem _ hsup, hpath⟩
      · rintro ⟨sup, hsup, hpath⟩
        rcases List.mem_cons.1 hsup with rfl | hsup
        · obtain heq | ⟨next, hstep, hrest⟩ := hpath.cases_head
          · exact absurd heq hne
          · have hnext := List.mem_reverse.2 (mem_parents_iff.2 hstep)
            exact ⟨next, List.mem_append_left _ hnext, hrest⟩
        · exact ⟨sup, List.mem_append_right _ hsup, hpath⟩

/-- The subclasses of a class are the classes that inherit from it, and every class is a subclass of
the root class. -/
theorem isSubclass_iff : h.isSubclass sub sup ↔ h.Inherits sub sup ∨ sup = ClassId.object := by
  have hsearch : h.reaches sup [] [sub] ↔ h.Inherits sub sup := by
    rw [reaches_iff (fun _ hmem => absurd hmem List.not_mem_nil)]
    simp
  simp only [isSubclass, Bool.or_eq_true, beq_iff_eq, hsearch]
  constructor
  · rintro ((rfl | hobject) | hpath)
    · exact .inl .refl
    · exact .inr hobject
    · exact .inl hpath
  · rintro (hpath | hobject)
    · exact .inr hpath
    · exact .inl (.inr hobject)

end Breakpoint.Hierarchy
