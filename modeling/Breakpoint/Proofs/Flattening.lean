import Breakpoint.Proofs.Correspondence
import Breakpoint.Proofs.Typing

/-!
Operator chains. A chain is compiled from the left: what stands to the left of an operator is an
operand with the type that the operations so far have given it. So nothing changes if a left part of
the chain is written as an operand of its own, with or without parentheses, and carries that type.
The two spellings compile to the same tree or are refused for the same cause, and blame the same
text; only where the blamed text starts may differ.
-/

namespace Breakpoint

/-- Refusals are compared by their causes and by the texts that they blame. -/
def Leeway.ofText : Leeway :=
  ⟨fun f g => f.cause = g.cause ∧ f.excerpt.text = g.excerpt.text, fun _ => False, fun _ => False⟩

namespace Corresponds

variable {α β : Type} {L : Leeway} {R : α → β → Prop} {x : Except Fault α} {y : Except Fault β}

theorem refl_ofText (x : Except Fault α) : Corresponds .ofText Eq x x :=
  .refl (L := .ofText) (fun _ => ⟨rfl, rfl⟩) (fun _ => rfl) x

theorem and_yields {P : α → Prop} (h : Corresponds L R x y) (hP : Yields P x) :
    Corresponds L (fun a b => R a b ∧ P a) x y := by
  cases x with
  | ok a =>
      cases y with
      | ok b => exact ⟨h, hP⟩
      | error g => exact h
  | error f =>
      cases y with
      | ok b => exact h
      | error g => exact h

/-- Both sides have the same results, and a refusal of the first side is one of the second up to its
place. -/
theorem same_ofText {x y : Except Fault α} (h : Corresponds .ofText Eq x y) :
    (∀ a, x = .ok a ↔ y = .ok a) ∧
      ∀ fault, x = .error fault →
        ∃ span, y = .error ⟨fault.cause, fault.excerpt.text, span⟩ := by
  cases x with
  | ok a =>
      cases y with
      | ok b =>
          obtain rfl : a = b := h
          exact ⟨fun _ => Iff.rfl, fun fault hfault => by cases hfault⟩
      | error g => exact h.elim
  | error f =>
      cases y with
      | ok b => exact h.elim
      | error g =>
          refine ⟨fun a => iff_of_false (by simp) (by simp), fun fault hfault => ?_⟩
          cases hfault
          rcases h with ⟨hcause, htext⟩ | hfalse | hfalse
          · exact ⟨g.excerpt.span, by rw [hcause, htext]⟩
          · exact hfalse.elim
          · exact hfalse.elim

end Corresponds

namespace Expr

/-- An expression in as many parentheses as there are notes on them. -/
def enclosed (e : Expr) : List Note → Expr
  | [] => e
  | note :: notes => .paren note (e.enclosed notes)

theorem ty?_enclosed {e : Expr} {notes : List Note} (h : ∀ note ∈ notes, note.ty? = e.ty?) :
    (e.enclosed notes).ty? = e.ty? := by
  cases notes with
  | nil => rfl
  | cons note notes => exact h note List.mem_cons_self

end Expr

namespace View

variable {v : View}

theorem lower_enclosed (e : Expr) (notes : List Note) :
    v.lower .value (e.enclosed notes) = v.lower .value e := by
  induction notes with
  | nil => rfl
  | cons note notes ih =>
      rw [Expr.enclosed, lower]
      · exact ih
      · simp

/-- An operation gives a result of the type that it has for the types of its operands. -/
theorem combine_ty (start : Span) (op : BinaryOp) (left right : Operand) (e : Expr) :
    Yields (fun x => op.typeOf? left.ty right.ty = some x.ty)
      (v.combine start op left right e) := by
  obtain ⟨hleft, hright⟩ := op.convert_ty left right
  unfold combine
  dsimp only
  split
  next ty hty =>
    rw [hleft, hright] at hty
    exact hty
  · trivial

theorem lowerRest_nil (start : Span) (left : Operand) (ops : List BinaryOp) :
    v.lowerRest start left [] ops = .ok left := by
  rw [lowerRest]
  · rfl
  · simp

/-- What stands to the left of an operator has the type that the operations so far give. -/
theorem lowerRest_ty (start : Span) (left : Operand) (rest : List Expr) (ops : List BinaryOp) :
    Yields (fun x => Expr.foldTy? left.ty rest ops = some x.ty)
      (v.lowerRest start left rest ops) := by
  induction rest generalizing left ops with
  | nil =>
      rw [lowerRest_nil]
      exact rfl
  | cons e rest ih =>
      cases ops with
      | nil =>
          rw [lowerRest]
          · exact rfl
          · simp
      | cons op ops =>
          rw [lowerRest]
          apply (e.operand_meets (fun _ _ => trivial) (yields_any _)).bind
          rintro right ⟨-, hright⟩
          apply (combine_ty start op left right e).bind
          intro whole hwhole
          refine (ih whole ops).imp fun x hx => ?_
          rw [Expr.foldTy?, hright, Option.bind_some, hwhole, Option.bind_some, hx]

theorem lowerRest_append (start : Span) (left : Operand) {rest : List Expr} {ops : List BinaryOp}
    (hlength : rest.length = ops.length) (rest' : List Expr) (ops' : List BinaryOp) :
    v.lowerRest start left (rest ++ rest') (ops ++ ops') =
      v.lowerRest start left rest ops >>= fun x => v.lowerRest start x rest' ops' := by
  induction rest generalizing left ops with
  | nil =>
      cases ops with
      | nil =>
          rw [lowerRest_nil]
          rfl
      | cons op ops => cases hlength
  | cons e rest ih =>
      cases ops with
      | nil => cases hlength
      | cons op ops =>
          simp only [List.cons_append, lowerRest, bind_assoc]
          simp only [ih _ (Nat.succ.inj hlength)]

theorem combine_start (start start' : Span) (op : BinaryOp) (left right : Operand) (e : Expr) :
    Corresponds .ofText Eq (v.combine start op left right e)
      (v.combine start' op left right e) := by
  unfold combine
  dsimp only
  split
  · exact .refl_ofText _
  · exact .inl ⟨rfl, rfl⟩

/-- Where a chain starts plays a part only in the places that its refusals blame. -/
theorem lowerRest_start (start start' : Span) (left : Operand) (rest : List Expr)
    (ops : List BinaryOp) :
    Corresponds .ofText Eq (v.lowerRest start left rest ops)
      (v.lowerRest start' left rest ops) := by
  induction rest generalizing left ops with
  | nil =>
      rw [lowerRest_nil, lowerRest_nil]
      exact .refl_ofText _
  | cons e rest ih =>
      cases ops with
      | nil =>
          rw [lowerRest, lowerRest]
          · exact .refl_ofText _
          · simp
          · simp
      | cons op ops =>
          rw [lowerRest, lowerRest]
          refine (Corresponds.refl_ofText _).bind_eq fun right => ?_
          exact (combine_start start start' op left right e).bind_eq fun whole => ih whole ops

/-- The operand that a chain of as many operators as further operands comes to. -/
def lowerChain (v : View) (start : Span) (first : Expr) (rest : List Expr) (ops : List BinaryOp) :
    Except Fault Operand :=
  first.operand (v.lower .value first) >>= fun left => v.lowerRest start left rest ops

theorem lower_chain (note : Note) (first : Expr) {rest : List Expr} {ops : List BinaryOp}
    (hlength : rest.length = ops.length) :
    v.lower .value (.chain note (first :: rest) ops) =
      (v.lowerChain (first.excerpt.span.orElse note.excerpt.span) first rest ops).map
        Operand.tree := by
  have hchain : v.lower .value (.chain note (first :: rest) ops) =
      (first.operand (v.lower .value first) >>= fun left =>
        v.lowerRest (first.excerpt.span.orElse note.excerpt.span) left rest ops >>= fun whole =>
          pure whole.tree) := by
    rw [lower]
    exact if_neg (not_not.2 hlength)
  rw [hchain, ← bind_assoc]
  rfl

/-- A chain of one operand is that operand, whose type has to be known. -/
theorem lower_chain_single (note : Note) (x : Expr) : v.lower .value (.chain note [x] []) =
    match x.ty? with
    | some _ => v.lower .value x
    | none => .error ⟨.missingType, x.excerpt⟩ := by
  rw [lower_chain note x rfl, lowerChain, Expr.operand, Note.needTy, ← Expr.ty?]
  simp only [lowerRest_nil]
  cases x.ty? with
  | none => rfl
  | some ty => cases v.lower .value x <;> rfl

theorem lowerChain_append (start : Span) (first : Expr) {rest : List Expr} {ops : List BinaryOp}
    (hlength : rest.length = ops.length) (rest' : List Expr) (ops' : List BinaryOp) :
    v.lowerChain start first (rest ++ rest') (ops ++ ops') =
      v.lowerChain start first rest ops >>= fun x => v.lowerRest start x rest' ops' := by
  simp only [lowerChain, lowerRest_append start _ hlength, bind_assoc]

theorem lowerChain_ty (start : Span) (first : Expr) (rest : List Expr) (ops : List BinaryOp) :
    Yields (fun x => (first.ty?.bind fun left => Expr.foldTy? left rest ops) = some x.ty)
      (v.lowerChain start first rest ops) := by
  apply (first.operand_meets (fun _ _ => trivial) (yields_any _)).bind
  rintro left ⟨-, hleft⟩
  rw [hleft]
  exact lowerRest_ty start left rest ops

theorem lowerChain_start (start start' : Span) (first : Expr) (rest : List Expr)
    (ops : List BinaryOp) :
    Corresponds .ofText Eq (v.lowerChain start first rest ops)
      (v.lowerChain start' first rest ops) :=
  (Corresponds.refl_ofText _).bind_eq fun left => lowerRest_start start start' left rest ops

/-- A chain is an operand of its own, if it carries the type that its operations give. -/
theorem operand_leftPart (start : Span) (first : Expr) {rest : List Expr} {ops : List BinaryOp}
    (hlength : rest.length = ops.length) {inner : Note} {parens : List Note} {ty : Ty}
    (hinner : inner.ty? = some ty) (hparens : ∀ paren ∈ parens, paren.ty? = inner.ty?)
    (hty : ∀ folded, (first.ty?.bind fun left => Expr.foldTy? left rest ops) = some folded →
      folded = ty) :
    let leftPart := (Expr.chain inner (first :: rest) ops).enclosed parens
    Corresponds .ofText Eq (v.lowerChain start first rest ops)
      (leftPart.operand (v.lower .value leftPart)) := by
  intro leftPart
  let start' := first.excerpt.span.orElse inner.excerpt.span
  have hleft : leftPart.note.needTy = .ok ty := by
    have hleftTy : leftPart.note.ty? = some ty := (Expr.ty?_enclosed hparens).trans hinner
    rw [Note.needTy, hleftTy]
  have hoperand : leftPart.operand (v.lower .value leftPart) =
      v.lowerChain start' first rest ops >>= fun whole => .ok ⟨whole.tree, ty⟩ := by
    rw [Expr.operand, hleft, lower_enclosed, lower_chain inner first hlength]
    cases v.lowerChain start' first rest ops <;> rfl
  rw [hoperand, ← bind_pure (v.lowerChain start first rest ops)]
  refine ((lowerChain_start start start' first rest ops).and_yields
    (lowerChain_ty start first rest ops)).bind ?_
  rintro whole _ ⟨rfl, hwhole⟩
  rw [← hty whole.ty hwhole]
  exact rfl

end View

/-- A chain means the same if a left part of it is an operand of its own. Let the left part, in any
number of parentheses, carry the type that its operations give for the noted types of its operands,
or any type if they give none. Then the chain compiles if and only if it compiles with the left part
as its first operand, and to the same tree; if it is refused, so is the other, for the same cause
and blaming the same text. A chain of one operand is that operand, whose type has to be known. -/
theorem chains_nest_left (v : View) (first : Expr) (rest : List Expr) (ops : List BinaryOp)
    (hlength : rest.length = ops.length) (k : Nat) (note outer inner : Note) (parens : List Note)
    (ty : Ty) (hinner : inner.ty? = some ty) (hparens : ∀ paren ∈ parens, paren.ty? = inner.ty?)
    (hty : ∀ folded, (first.ty?.bind fun left =>
      Expr.foldTy? left (rest.take k) (ops.take k)) = some folded → folded = ty) :
    let leftPart := (Expr.chain inner (first :: rest.take k) (ops.take k)).enclosed parens
    let flat := Expr.chain note (first :: rest) ops
    let nested := Expr.chain outer (leftPart :: rest.drop k) (ops.drop k)
    (∀ t, v.lower .value flat = .ok t ↔ v.lower .value nested = .ok t) ∧
    (∀ fault, v.lower .value flat = .error fault →
      ∃ span, v.lower .value nested = .error ⟨fault.cause, fault.excerpt.text, span⟩) ∧
    ∀ (note : Note) (x : Expr), v.lower .value (.chain note [x] []) =
      match x.ty? with
      | some _ => v.lower .value x
      | none => .error ⟨.missingType, x.excerpt⟩ := by
  intro leftPart flat nested
  have htake : (rest.take k).length = (ops.take k).length := by simp [hlength]
  have hdrop : (rest.drop k).length = (ops.drop k).length := by simp [hlength]
  let start := first.excerpt.span.orElse note.excerpt.span
  have hflat : v.lower .value flat =
      (v.lowerChain start first (rest.take k) (ops.take k) >>= fun left =>
        v.lowerRest start left (rest.drop k) (ops.drop k)).map Operand.tree := by
    rw [View.lower_chain note first hlength, ← View.lowerChain_append start first htake,
      List.take_append_drop, List.take_append_drop]
  have hsame : Corresponds .ofText Eq (v.lower .value flat) (v.lower .value nested) := by
    rw [hflat, View.lower_chain outer leftPart hdrop]
    have hleft := View.operand_leftPart (v := v) start first htake hinner hparens hty
    refine (hleft.bind_eq fun left => ?_).map fun _ _ => congrArg Operand.tree
    exact View.lowerRest_start start _ left _ _
  obtain ⟨hok, herror⟩ := hsame.same_ofText
  exact ⟨hok, herror, View.lower_chain_single⟩

/-- A boxed number, one, and a string, added from the left: the sum is computed before it is joined
to the string, whether or not it stands in parentheses. -/
theorem chains_nest_left_labeledSum :
    let v : View := ⟨⟨.empty, ⟨[⟨1⟩], .onInstance⟩, {}⟩, fun _ => false⟩
    let i : Expr := .name { ty? := some (.boxed .int) } none "i"
      (.localVar { name := "i", ty := .boxed .int, origin := .method ⟨1⟩ })
    let one : Expr := .literal { ty? := some .int } (.int 1)
    let label : Expr := .literal { ty? := some .string } (.string "!")
    let sum : Expr := .chain { ty? := some .int } [i, one] [.add]
    let tree : Tree := .binary .add
      (.binary .add (.unbox (.localVar "i" .frame) .int) (.literal (.int 1) .int) .int)
      (.literal (.string "!") .string) .string
    v.lower .value (.chain {} [i, one, label] [.add, .add]) = .ok tree ∧
      v.lower .value (.chain {} [.paren { ty? := some .int } sum, label] [.add]) = .ok tree := by
  intro v i one label sum tree
  have hflat : v.lower .value (.chain {} [i, one, label] [.add, .add]) = .ok tree := rfl
  have hnested := chains_nest_left v i [one, label] [.add, .add] rfl 1 {} {}
    { ty? := some .int } [{ ty? := some .int }] .int rfl (by simp)
    fun folded hfolded => (Option.some.inj hfolded).symm
  exact ⟨hflat, (hnested.1 tree).1 hflat⟩

end Breakpoint
