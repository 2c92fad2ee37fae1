import Breakpoint.Compile

/-!
Postconditions of compilations. An outcome meets a pair of predicates if its refusal, or else its
result, satisfies the one meant for it; a compilation that changes its context meets them from a
given context. The rules below follow the ways in which compilations are put together, so that a
proof about a compilation has the shape of the compilation.
-/

namespace Breakpoint

variable {α β : Type}

/-- A refusal satisfies `F`, a result satisfies `P`. -/
def Meets (F : Fault → Prop) (P : α → Prop) : Except Fault α → Prop
  | .ok a => P a
  | .error fault => F fault

/-- A result satisfies `P`; nothing is said about refusals. -/
abbrev Yields (P : α → Prop) : Except Fault α → Prop := Meets (fun _ => True) P

theorem yields_any (x : Except Fault α) : Yields (fun _ => True) x := by
  cases x <;> trivial

namespace Meets

variable {F F' : Fault → Prop} {P : α → Prop} {Q : β → Prop} {x : Except Fault α}

theorem of_ok (h : Meets F P x) {a : α} (hx : x = .ok a) : P a := by
  rw [hx] at h
  exact h

theorem of_error (h : Meets F P x) {fault : Fault} (hx : x = .error fault) : F fault := by
  rw [hx] at h
  exact h

theorem mono {P' : α → Prop} (h : Meets F P x) (hF : ∀ fault, F fault → F' fault)
    (hP : ∀ a, P a → P' a) : Meets F' P' x := by
  cases x with
  | ok a => exact hP a h
  | error fault => exact hF fault h

theorem imp {P' : α → Prop} (h : Meets F P x) (hP : ∀ a, P a → P' a) : Meets F P' x :=
  h.mono (fun _ => id) hP

theorem and {P' : α → Prop} (h : Meets F P x) (h' : Meets F' P' x) :
    Meets F (fun a => P a ∧ P' a) x := by
  cases x with
  | ok a => exact ⟨h, h'⟩
  | error fault => exact h

/-- The result is the one that was computed. -/
theorem with_eq (h : Meets F P x) : Meets F (fun a => P a ∧ x = .ok a) x := by
  cases x with
  | ok a => exact ⟨h, rfl⟩
  | error fault => exact h

theorem eq_ok (h : Meets F P x) : Meets F (fun a => x = .ok a) x :=
  h.with_eq.imp fun _ => And.right

theorem yields (h : Meets F P x) : Yields P x := h.mono (fun _ _ => trivial) fun _ => id

theorem bind {k : α → Except Fault β} (h : Meets F P x) (hk : ∀ a, P a → Meets F Q (k a)) :
    Meets F Q (x >>= k) := by
  cases x with
  | ok a => exact hk a h
  | error fault => exact h

theorem map {f : α → β} (h : Meets F P x) (hf : ∀ a, P a → Q (f a)) : Meets F Q (x.map f) := by
  cases x with
  | ok a => exact hf a h
  | error fault => exact h

end Meets

theorem Yields.of_ok {P : α → Prop} {x : Except Fault α} (h : Yields P x) {a : α}
    (hx : x = .ok a) : P a :=
  Meets.of_ok h hx

namespace Lowering

/-- Started from `c`, a compilation that is refused leaves a fault and a context that satisfy `F`,
and one that succeeds a result and a context that satisfy `P`. -/
def Meets (c : Context) (F : Fault → Context → Prop) (P : α → Context → Prop) (body : Lowering α) :
    Prop :=
  Breakpoint.Meets (F · (body.run.run c).2) (P · (body.run.run c).2) (body.run.run c).1

variable {c : Context} {F : Fault → Context → Prop} {P : α → Context → Prop}
  {Q : β → Context → Prop} {body : Lowering α}

theorem Meets.outcome {F : Fault → Prop} {P : α → Prop} {site : Site}
    (h : Meets (Context.start site) (fun fault _ => F fault) (fun a _ => P a) body) :
    Breakpoint.Meets F P (body.outcome site) := h

theorem Meets.of_ok (h : Meets c F P body) {a : α} {c' : Context}
    (hrun : body.run.run c = (.ok a, c')) : P a c' := by
  unfold Meets at h
  rw [hrun] at h
  exact h

theorem Meets.mono {F' : Fault → Context → Prop} {P' : α → Context → Prop} (h : Meets c F P body)
    (hF : ∀ fault c', F fault c' → F' fault c') (hP : ∀ a c', P a c' → P' a c') :
    Meets c F' P' body :=
  Breakpoint.Meets.mono h (fun fault => hF fault _) (fun a => hP a _)

theorem meets_pure {a : α} (h : P a c) : Meets c F P (pure a) := h

theorem meets_refuse {excerpt : Excerpt} {cause : Cause} (h : F ⟨cause, excerpt⟩ c) :
    Meets c F P (refuse excerpt cause) := h

theorem run_bind (k : α → Lowering β) (c : Context) :
    (body >>= k).run.run c = match body.run.run c with
      | (.ok a, c') => (k a).run.run c'
      | (.error fault, c') => (.error fault, c') := by
  rw [ExceptT.run_bind, StateT.run_bind]
  generalize body.run.run c = result
  obtain ⟨_ | _, c'⟩ := result <;> rfl

theorem Meets.bind {k : α → Lowering β} (h : Meets c F P body)
    (hk : ∀ a c', P a c' → Meets c' F Q (k a)) : Meets c F Q (body >>= k) := by
  unfold Meets at h ⊢
  rw [run_bind]
  generalize body.run.run c = result at h ⊢
  obtain ⟨_ | _, c'⟩ := result
  · exact h
  · exact hk _ _ h

/-- What an expression compiles to in the current view; the context stays as it is. -/
theorem meets_ofView {outcome : View → Except Fault α}
    (h : Breakpoint.Meets (F · c) (P · c) (outcome c.view)) : Meets c F P (ofView outcome) := h

/-- A bracketed compilation, read from the context that was entered to the one that is left. -/
theorem meets_bracket {enter leave : Context → Context}
    (h : Meets (enter c) (fun fault c' => F fault (leave c')) (fun a c' => P a (leave c')) body) :
    Meets c F P (bracket enter leave body) := h

/-- A statement that no label can stand in front of, which may be refused for having one. -/
theorem meets_unlabeled {placement : Placement} {excerpt : Excerpt}
    (hlabel : ∀ label, F ⟨.invalidLabelTarget label, excerpt⟩ c) (h : Meets c F P body) :
    Meets c F P (unlabeled placement excerpt body) := by
  cases placement with
  | labeled label => exact hlabel label
  | single => exact h
  | listed => exact h

theorem run_declare (entry : LocalEntry) (text : String) (c : Context) :
    (declare entry text).run.run c = match c.arena.declare entry text with
      | .ok arena => (.ok (), { c with arena })
      | .error fault => (.error fault, c) := by
  simp only [declare, ExceptT.run_mk, StateT.run_bind, StateT.run_get, pure_bind]
  cases c.arena.declare entry text <;> rfl

theorem meets_declare {entry : LocalEntry} {text : String} {P : Unit → Context → Prop}
    (h : Breakpoint.Meets (F · c) (fun arena => P () { c with arena })
      (c.arena.declare entry text)) : Meets c F P (declare entry text) := by
  unfold Meets
  rw [run_declare]
  cases hdeclare : c.arena.declare entry text with
  | ok arena =>
      rw [hdeclare] at h
      exact h
  | error fault =>
      rw [hdeclare] at h
      exact h

theorem meets_jump {check : Jumps → Except Fault Unit} {P : Unit → Context → Prop}
    (h : Breakpoint.Meets (F · c) (P · c) (check c.jumps)) : Meets c F P (jump check) := h

end Lowering

end Breakpoint
