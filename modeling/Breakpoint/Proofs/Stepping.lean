import Breakpoint.Proofs.Flattening
import Breakpoint.Proofs.Idempotence

/-!
Increments and decrements. A step builds its tree by itself, from the place it steps; an assignment
of a sum goes through the rules of the operator and the conversion for the place. Both come to the
same: a step is the assignment that spells it out, but for the value that it yields.
-/

namespace Breakpoint

theorem Role.eq_ok_of_place {note : Note} {value : Except Fault Tree} {tree : Tree}
    (h : Role.target.place note value = .ok tree) : value = .ok tree := by
  cases value with
  | error fault => cases h
  | ok t =>
      change (if t.isLvalue then .ok t else note.excerpt.refuse .notAnLvalue) = Except.ok tree at h
      split at h
      · exact h
      · cases h

namespace View

variable {v : View}

/-- What compiles to a place has that place for its value. -/
theorem lower_value_of_target {tree : Tree} :
    ∀ {e : Expr}, v.lower .target e = .ok tree → v.lower .value e = .ok tree
  | .name note none n decl, h => by
      rw [lower] at h ⊢
      exact Role.eq_ok_of_place h
  | .name note (some q) n decl, h => by
      rw [lower] at h ⊢
      exact Role.eq_ok_of_place h
  | .index note array index, h => by
      rw [lower] at h ⊢
      exact Role.eq_ok_of_place h
  | .paren note inner, h => by
      have hinner : v.lower .target inner = .ok tree := by
        rwa [lower] at h
        simp
      rw [lower]
      · exact lower_value_of_target hinner
      · simp
  | .superRef note qualifier, h => by
      rw [lower] at h
      · cases h
      · simp
  | .chain note [] ops, h | .chain note (first :: rest) ops, h | .assign note .plain target value, h
  | .assign note (.compound op) target value, h | .call note qualifier n none args, h
  | .call note qualifier n (some m) args, h | .newArray note dims (some init), h
  | .newArray note [] none, h | .newArray note (dim :: dims) none, h | .literal .., h
  | .thisRef .., h | .classLiteral .., h | .unary .., h | .step .., h | .conditional .., h
  | .instanceOf .., h | .cast .., h | .newInstance .., h | .braces .., h | .lambda _, h
  | .methodRef _, h => by
      rw [lower] at h
      cases h

end View

/-- The number that a step adds or takes away. -/
def Operand.one : Operand := ⟨.literal (.int 1) .int, .int⟩

/-- The operand stepped by one: both are brought to a kind of at least `int`, which is that of the
result. -/
def StepOp.stepped (op : StepOp) (x : Operand) (kind : Kind) : Operand :=
  let promoted := kind.join .int
  ⟨.binary op.binary (x.asKind promoted).tree (Operand.one.asKind promoted).tree (.prim promoted),
    .prim promoted⟩

namespace StepOp

variable {x : Operand} {ty : Ty} {kind : Kind}

/-- An increment adds, a decrement subtracts. -/
theorem binary_of_mem {op : StepOp} {sign : BinaryOp}
    (h : (op, sign) ∈ [(increment, .add), (decrement, .sub)]) : op.binary = sign := by
  revert h
  cases op <;> cases sign <;> decide

/-- A step is an arithmetic operation on a number and one. -/
theorem operates (op : StepOp) (hkind : x.ty.kind? = some kind) (hnumeric : kind.isNumeric)
    {y : Operand} (hy : y.ty = .int) :
    op.binary.Operates x y (x.asKind (kind.join .int), y.asKind (kind.join .int))
      (.prim (kind.join .int)) := by
  have hop : op.binary ∈ [.add, .sub, .mul, .div, .rem] := by cases op <;> decide
  have hone : y.ty.kind? = some .int := by
    rw [hy]
    rfl
  exact .arithmetic hop hkind hone hnumeric rfl

theorem typeOf? (op : StepOp) (hkind : ty.kind? = some kind) (hnumeric : kind.isNumeric) :
    op.binary.typeOf? ty .int = some (.prim (kind.join .int)) := by
  obtain ⟨hconvert, hresult⟩ :=
    (op.operates (x := ⟨default, ty⟩) hkind hnumeric (y := ⟨default, .int⟩) rfl).result?
  rw [BinaryOp.typeOf?, hconvert]
  exact hresult

/-- The tree of a step is the assignment of the sum, converted for the place. -/
theorem stepTree_eq_assign (op : StepOp) (form : StepForm) (hkind : ty.kind? = some kind)
    (place : Tree) : View.stepTree op form kind ty place =
      .assign place ((op.stepped ⟨place, ty⟩ kind).assignTo ty).tree (form == .after) := by
  rcases Ty.prim_or_boxed_of_kind? hkind with rfl | rfl
  · have hassign : (op.stepped ⟨place, .prim kind⟩ kind).assignTo (.prim kind) =
        (op.stepped ⟨place, .prim kind⟩ kind).castTo (.prim kind) := by
      rw [Operand.assignTo_prim rfl, Operand.asKind_of_prim rfl]
    rw [hassign]
    rfl
  · rw [Operand.assignTo_boxed rfl]
    rfl

end StepOp

namespace View

variable {v : View} {x : Expr} {place : Tree} {ty : Ty} {kind : Kind}

theorem combine_one (start : Span) (op : StepOp) (hkind : ty.kind? = some kind)
    (hnumeric : kind.isNumeric) (e : Expr) :
    v.combine start op.binary ⟨place, ty⟩ .one e = .ok (op.stepped ⟨place, ty⟩ kind) := by
  obtain ⟨hconvert, hresult⟩ :=
    (op.operates (x := ⟨place, ty⟩) hkind hnumeric (y := .one) rfl).result?
  unfold combine
  rw [hconvert]
  dsimp only
  rw [hresult]
  rfl

theorem lowerRest_one (start : Span) (op : StepOp) {one : Note} (hone : one.ty? = some .int)
    (hkind : ty.kind? = some kind) (hnumeric : kind.isNumeric) :
    v.lowerRest start ⟨place, ty⟩ [.literal one (.int 1)] [op.binary] =
      .ok (op.stepped ⟨place, ty⟩ kind) := by
  have hliteral : (Expr.literal one (.int 1)).operand (v.lower .value (.literal one (.int 1))) =
      .ok .one := by
    rw [Expr.operand, Expr.note, Note.needTy, hone, lower]
    rfl
  rw [lowerRest, hliteral]
  change v.combine start op.binary ⟨place, ty⟩ .one _ >>= _ = _
  rw [combine_one start op hkind hnumeric]
  exact lowerRest_nil (v := v) start _ []

/-- The sum of an expression that has a number for its value, and one. -/
theorem lower_sum (op : StepOp) (sum : Note) {one : Note} (hone : one.ty? = some .int)
    (hx : x.operand (v.lower .value x) = .ok ⟨place, ty⟩) (hkind : ty.kind? = some kind)
    (hnumeric : kind.isNumeric) :
    v.lower .value (.chain sum [x, .literal one (.int 1)] [op.binary]) =
      .ok (op.stepped ⟨place, ty⟩ kind).tree := by
  rw [lower_chain sum x rfl, lowerChain, hx]
  exact congrArg (Except.map Operand.tree) (lowerRest_one _ op hone hkind hnumeric)

/-- A step stores to the place that its operand compiles to. -/
theorem lower_step (hneed : x.note.needTy = .ok ty) (hkind : ty.kind? = some kind)
    (hnumeric : kind.isNumeric) (note : Note) (op : StepOp) (form : StepForm) :
    v.lower .value (.step note op form x) =
      (v.lower .target x).map (stepTree op form kind ty) := by
  have hfilter : ty.kind?.filter Kind.isNumeric = some kind := by simp [hkind, hnumeric]
  rw [lower, hneed]
  change v.stepPlace note op form ty (v.lower .target x) = _
  rw [stepPlace, hfilter]

/-- An assignment stores to the place that its target compiles to. -/
theorem lower_assign (hneed : x.note.needTy = .ok ty) (note : Note) (value : Expr) :
    v.lower .value (.assign note .plain x value) =
      v.lower .target x >>= fun place => value.operand (v.lower .value value) >>= fun y =>
        .ok (.assign place (y.assignTo ty).tree false) := by
  rw [lower, hneed]
  rfl

end View

/-- A step means the assignment that spells it out. Let an expression have a numeric type, primitive
or a wrapper. An increment of it, before or after, compiles if and only if the assignment of its sum
with one compiles, and a decrement if and only if that of its difference from one does, where the
sum carries the type that its operands give; the two trees are then the same store, and only the
step after its operand yields the old value. If one of the two is refused, so is the other, with the
same fault. -/
theorem steps_spelled_out (v : View) (x : Expr) (ty : Ty) (hty : x.ty? = some ty)
    (hnumeric : ty.isNumeric) (op : StepOp) (sign : BinaryOp)
    (hsign : (op, sign) ∈ [(.increment, .add), (.decrement, .sub)]) (form : StepForm)
    (note outer sum one : Note) (hone : one.ty? = some .int)
    (hsum : sum.ty? = Expr.foldTy? ty [.literal one (.int 1)] [sign]) :
    let step := Expr.step note op form x
    let spelledOut := Expr.assign outer .plain x (.chain sum [x, .literal one (.int 1)] [sign])
    (∃ place value, v.lower .value step = .ok (.assign place value (form == .after)) ∧
      v.lower .value spelledOut = .ok (.assign place value false)) ∨
    ∃ fault, v.lower .value step = .error fault ∧ v.lower .value spelledOut = .error fault := by
  intro step spelledOut
  obtain rfl := StepOp.binary_of_mem hsign
  obtain ⟨kind, hkind, hnumeric⟩ := Ty.isNumeric_iff.1 hnumeric
  have hneed : x.note.needTy = .ok ty := by rw [Note.needTy, ← Expr.ty?, hty]
  have hstep := View.lower_step (v := v) hneed hkind hnumeric note op form
  have hassign := View.lower_assign (v := v) hneed outer
    (.chain sum [x, .literal one (.int 1)] [op.binary])
  -- Both sides compile the place first and cannot fail after that.
  cases hplace : v.lower .target x with
  | error fault =>
      rw [hplace] at hstep hassign
      exact .inr ⟨fault, hstep, hassign⟩
  | ok place =>
      rw [hplace] at hstep hassign
      have hvalue : x.operand (v.lower .value x) = .ok ⟨place, ty⟩ := by
        rw [Expr.operand, hneed, View.lower_value_of_target hplace]
        rfl
      have hfold : sum.ty? = some (.prim (kind.join .int)) := by
        rw [hsum, Expr.foldTy?, Expr.ty?, Expr.note, hone, Option.bind_some,
          op.typeOf? hkind hnumeric]
        rfl
      have hstored : (Expr.chain sum [x, .literal one (.int 1)] [op.binary]).operand
          (v.lower .value (.chain sum [x, .literal one (.int 1)] [op.binary])) =
          .ok (op.stepped ⟨place, ty⟩ kind) := by
        rw [View.lower_sum op sum hone hvalue hkind hnumeric, Expr.operand, Expr.note, Note.needTy,
          hfold]
        rfl
      refine .inl ⟨place, ((op.stepped ⟨place, ty⟩ kind).assignTo ty).tree, ?_, ?_⟩
      · rw [← op.stepTree_eq_assign form hkind]
        exact hstep
      · rw [hstored] at hassign
        exact hassign

/-- A boxed `byte` in parentheses, incremented after its value is read and decremented before: it is
unboxed, widened for the sum or the difference, narrowed again and boxed, as in the assignment. -/
theorem steps_spelled_out_boxedByte :
    let v : View := ⟨⟨.empty, ⟨[⟨1⟩], .onInstance⟩, {}⟩, fun _ => false⟩
    let b : Expr := .name { ty? := some (.boxed .byte) } none "b"
      (.localVar { name := "b", ty := .boxed .byte, origin := .method ⟨1⟩ })
    let x : Expr := .paren { ty? := some (.boxed .byte) } b
    let one : Expr := .literal { ty? := some .int } (.int 1)
    let place : Tree := .localVar "b" .frame
    let value (sign : BinaryOp) : Tree := .box (.cast (.binary sign
      (.cast (.unbox place .byte) .int) (.literal (.int 1) .int) .int) (.prim .byte)) .byte
    (v.lower .value (.step {} .increment .after x) = .ok (.assign place (value .add) true) ∧
      v.lower .value (.assign {} .plain x (.chain { ty? := some .int } [x, one] [.add])) =
        .ok (.assign place (value .add) false)) ∧
    v.lower .value (.step {} .decrement .before x) = .ok (.assign place (value .sub) false) ∧
      v.lower .value (.assign {} .plain x (.chain { ty? := some .int } [x, one] [.sub])) =
        .ok (.assign place (value .sub) false) := by
  intro v b x one place value
  have hincrement : v.lower .value (.step {} .increment .after x) =
      .ok (.assign place (value .add) true) := rfl
  have hdecrement : v.lower .value (.step {} .decrement .before x) =
      .ok (.assign place (value .sub) false) := rfl
  constructor
  · rcases steps_spelled_out v x (.boxed .byte) rfl (by decide) .increment .add (by decide) .after
      {} {} { ty? := some .int } { ty? := some .int } rfl rfl with ⟨_, _, hstep, hassign⟩ | hfault
    · cases hincrement.symm.trans hstep
      exact ⟨hincrement, hassign⟩
    · obtain ⟨_, hfault, -⟩ := hfault
      cases hincrement.symm.trans hfault
  · rcases steps_spelled_out v x (.boxed .byte) rfl (by decide) .decrement .sub (by decide) .before
      {} {} { ty? := some .int } { ty? := some .int } rfl rfl with ⟨_, _, hstep, hassign⟩ | hfault
    · cases hdecrement.symm.trans hstep
      exact ⟨hdecrement, hassign⟩
    · obtain ⟨_, hfault, -⟩ := hfault
      cases hdecrement.symm.trans hfault

end Breakpoint
