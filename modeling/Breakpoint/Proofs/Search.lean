import Breakpoint.Proofs.Inheritance
import Mathlib.Algebra.Order.BigOperators.Group.List
import Mathlib.Algebra.Order.Ring.Nat
import Mathlib.Data.List.Chain

/-!
The search for a superclass, step by step. A step takes the first pending class: one that was
expanded before is dropped, any other is expanded, which puts the classes that it extends, the last
one first, in front of the pending ones.
Whatever the links are, a step uses up a pending class or the links of a class that are never used
again, so there are at most as many steps as there are links, and one for the class at the start.
Where the search ends, it has the answer: a path of links leads to the goal or does not.
-/

namespace Breakpoint.Hierarchy

variable {h : Hierarchy} {goal id sub sup : ClassId} {seen pending : List ClassId}

/-- How far a search has come: the classes that were expanded, and those that are pending. -/
structure Search where
  seen : List ClassId
  pending : List ClassId

/-- One step of the search for `goal`, which goes on as long as the first pending class is not the
goal. -/
inductive Search.Advances (h : Hierarchy) (goal : ClassId) : Search → Search → Prop where
  | skip {id : ClassId} {seen pending : List ClassId} (hne : id ≠ goal) (hseen : id ∈ seen) :
      Advances h goal ⟨seen, id :: pending⟩ ⟨seen, pending⟩
  | expand {id : ClassId} {seen pending : List ClassId} (hne : id ≠ goal) (hfresh : id ∉ seen) :
      Advances h goal ⟨seen, id :: pending⟩ ⟨id :: seen, (h.parents id).reverse ++ pending⟩

/-- The number of superclass and interface links of the classes outside `seen`. -/
def linksOutside (h : Hierarchy) (seen : List ClassId) : Nat :=
  (h.classes.map fun c =>
    if c.id ∈ seen then 0 else c.superclass.toList.length + c.interfaces.length).sum

/-- The number of all superclass and interface links. -/
def linkCount (h : Hierarchy) : Nat :=
  (h.classes.map fun c => c.superclass.toList.length + c.interfaces.length).sum

/-- What is left to do: the pending classes, and the links of the classes not yet expanded. -/
def Search.weight (h : Hierarchy) (s : Search) : Nat := s.pending.length + h.linksOutside s.seen

theorem linksOutside_nil : h.linksOutside [] = h.linkCount := by
  simp [linksOutside, linkCount]

/-- Once a class is expanded, its links no longer count. -/
theorem linksOutside_cons_add_le (hfresh : id ∉ seen) :
    h.linksOutside (id :: seen) + (h.parents id).length ≤ h.linksOutside seen := by
  have hmono (l : List ClassInfo) :
      (l.map fun c => if c.id ∈ id :: seen then 0
        else c.superclass.toList.length + c.interfaces.length).sum ≤
      (l.map fun c => if c.id ∈ seen then 0
        else c.superclass.toList.length + c.interfaces.length).sum := by
    refine List.sum_le_sum fun c _ => ?_
    by_cases hseen : c.id ∈ seen
    · simp [hseen]
    · by_cases heq : c.id = id
      · simp [heq]
      · simp [hseen, heq]
  cases known : h.get? id with
  | none =>
      simp only [parents, known, List.length_nil, Nat.add_zero]
      exact hmono h.classes
  | some c =>
      have hid : c.id = id := by simpa using List.find?_some known
      obtain ⟨before, after, hsplit⟩ := List.append_of_mem (List.mem_of_find?_eq_some known)
      have hbefore := hmono before
      have hafter := hmono after
      simp only [linksOutside, parents, known, hsplit, List.map_append, List.map_cons,
        List.sum_append, List.sum_cons, List.length_append, hid, List.mem_cons_self, if_true,
        hfresh, if_false]
      omega

namespace Search

variable {s t : Search}

theorem Advances.weight_lt (hstep : s.Advances h goal t) : t.weight h < s.weight h := by
  cases hstep with
  | skip hne hseen => simp [weight]
  | @expand id seen pending hne hfresh =>
      have hlinks := h.linksOutside_cons_add_le hfresh
      simp only [weight, List.length_append, List.length_reverse, List.length_cons]
      omega

/-- A step does not change what the search comes to. -/
theorem Advances.reaches_eq (hstep : s.Advances h goal t) :
    h.reaches goal s.seen s.pending = h.reaches goal t.seen t.pending := by
  cases hstep with
  | skip hne hseen => rw [reaches, if_neg hne, if_pos hseen]
  | expand hne hfresh => rw [reaches, if_neg hne, if_neg hfresh]

/-- Where no step is possible the goal comes next, or nothing does. -/
theorem reaches_of_final (hfinal : ¬∃ t, s.Advances h goal t) :
    h.reaches goal s.seen s.pending ↔ s.pending.head? = some goal := by
  obtain ⟨seen, pending⟩ := s
  cases pending with
  | nil => simp [reaches]
  | cons id pending =>
      by_cases hgoal : id = goal
      · rw [reaches, if_pos hgoal]
        simp [hgoal]
      · by_cases hseen : id ∈ seen
        · exact absurd ⟨_, .skip hgoal hseen⟩ hfinal
        · exact absurd ⟨_, .expand hgoal hseen⟩ hfinal

/-- Along a run, what is left to do falls with every step and the answer stays the same. -/
theorem run_weight {run : Nat → Search} {n : Nat}
    (hsteps : ∀ i < n, (run i).Advances h goal (run (i + 1))) :
    n + (run n).weight h ≤ (run 0).weight h ∧
      h.reaches goal (run 0).seen (run 0).pending =
        h.reaches goal (run n).seen (run n).pending := by
  induction n with
  | zero => exact ⟨by omega, rfl⟩
  | succ n ih =>
      obtain ⟨hweight, hreaches⟩ := ih fun i hi => hsteps i (by omega)
      have hstep := hsteps n (by omega)
      have hlt := hstep.weight_lt
      exact ⟨by omega, hreaches.trans hstep.reaches_eq⟩

end Search

/-- A path of links as the list of the classes that it passes. -/
theorem inherits_iff_exists_path : h.Inherits sub sup ↔
    ∃ path : List ClassId, path.head? = some sub ∧ path.getLast? = some sup ∧
      path.IsChain h.Extends := by
  constructor
  · intro hpath
    obtain ⟨rest, hchain, hlast⟩ := List.exists_isChain_cons_of_relationReflTransGen hpath
    refine ⟨sub :: rest, rfl, ?_, hchain⟩
    rw [List.getLast?_eq_some_getLast (List.cons_ne_nil sub rest), hlast]
  · rintro ⟨path, hhead, hlast, hchain⟩
    cases path with
    | nil => cases hhead
    | cons c rest =>
        cases hhead
        refine List.relationReflTransGen_of_exists_isChain_cons rest hchain ?_
        rwa [List.getLast?_eq_some_getLast (List.cons_ne_nil sub rest), Option.some_inj] at hlast

/-- The subclass test decides reachability, on every graph of links. It holds if and only if the
classes are equal, the second one is the root class, or a finite path of superclass and interface
links of known classes leads from the first to the second. And it ends: no run of its search has
more steps than there are links and one, and a run that cannot go on has found the answer. -/
theorem inheritance_decided (h : Hierarchy) (sub sup : ClassId) :
    (h.isSubclass sub sup ↔ sub = sup ∨ sup = ClassId.object ∨
      ∃ path : List ClassId, path.head? = some sub ∧ path.getLast? = some sup ∧
        path.IsChain h.Extends) ∧
    ∀ (n : Nat) (run : Nat → Search), run 0 = ⟨[], [sub]⟩ →
      (∀ i < n, (run i).Advances h sup (run (i + 1))) →
      n ≤ h.linkCount + 1 ∧ ((¬∃ next, (run n).Advances h sup next) →
        (h.reaches sup [] [sub] ↔ (run n).pending.head? = some sup)) := by
  constructor
  · rw [isSubclass_iff, ← inherits_iff_exists_path]
    constructor
    · rintro (hpath | hobject)
      · exact .inr (.inr hpath)
      · exact .inr (.inl hobject)
    · rintro (rfl | hobject | hpath)
      · exact .inl .refl
      · exact .inr hobject
      · exact .inl hpath
  · intro n run hstart hsteps
    obtain ⟨hweight, hreaches⟩ := Search.run_weight hsteps
    rw [hstart] at hweight hreaches
    refine ⟨?_, fun hfinal => ?_⟩
    · simp only [Search.weight, linksOutside_nil, List.length_singleton] at hweight
      omega
    · rw [hreaches]
      exact Search.reaches_of_final hfinal

/-- Two classes that extend each other; the second one implements an unknown interface, twice, and
then the first class as if it were an interface. -/
def cyclic : Hierarchy :=
  (Hierarchy.empty.insert
    { id := ⟨2⟩, name := "Even", superclass := some ⟨1⟩, interfaces := [⟨3⟩, ⟨3⟩, ⟨1⟩] }).insert
    { id := ⟨1⟩, name := "Odd", superclass := some ⟨2⟩ }

/-- The search of `cyclic` for the interface. -/
def Search.ofCyclic : Nat → Search
  | 0 => ⟨[], [⟨1⟩]⟩
  | 1 => ⟨[⟨1⟩], [⟨2⟩]⟩
  | 2 => ⟨[⟨2⟩, ⟨1⟩], [⟨1⟩, ⟨3⟩, ⟨3⟩, ⟨1⟩]⟩
  | _ => ⟨[⟨2⟩, ⟨1⟩], [⟨3⟩, ⟨3⟩, ⟨1⟩]⟩

/-- The interface is found behind the cycle, after three steps. -/
theorem inheritance_decided_cyclic :
    cyclic.isSubclass ⟨1⟩ ⟨3⟩ ∧
      (∀ i < 3, (Search.ofCyclic i).Advances cyclic ⟨3⟩ (Search.ofCyclic (i + 1))) ∧
      3 ≤ cyclic.linkCount + 1 ∧ cyclic.reaches ⟨3⟩ [] [⟨1⟩] := by
  have hpath : cyclic.isSubclass ⟨1⟩ ⟨3⟩ := by
    refine (inheritance_decided cyclic ⟨1⟩ ⟨3⟩).1.2 (.inr (.inr ⟨[⟨1⟩, ⟨2⟩, ⟨3⟩], rfl, rfl, ?_⟩))
    refine .cons_cons ⟨_, rfl, .inl rfl⟩ (.cons_cons ⟨_, rfl, .inr ?_⟩ (.singleton _))
    exact List.mem_cons_self
  have hsteps : ∀ i < 3, (Search.ofCyclic i).Advances cyclic ⟨3⟩ (Search.ofCyclic (i + 1)) := by
    intro i hi
    obtain rfl | rfl | rfl : i = 0 ∨ i = 1 ∨ i = 2 := by omega
    · exact .expand (by decide) (by decide)
    · exact .expand (by decide) (by decide)
    · exact .skip (by decide) (by decide)
  obtain ⟨hcount, hfinal⟩ := (inheritance_decided cyclic ⟨1⟩ ⟨3⟩).2 3 Search.ofCyclic rfl hsteps
  refine ⟨hpath, hsteps, hcount, (hfinal ?_).2 rfl⟩
  rintro ⟨next, hnext⟩
  cases hnext with
  | skip hne => exact hne rfl
  | expand hne => exact hne rfl

end Breakpoint.Hierarchy
