import Breakpoint.Proofs.Conversion
import Mathlib.Tactic.Common

/-!
The operand rules of the binary operators. An operator joins strings, compares references, or works
on two primitive values; which of these it does depends on the types of its operands alone. The
rules are stated as the language states them, each with the operators and operands it is for, and
conversion followed by the choice of a result type is shown to follow exactly these rules.
-/

namespace Breakpoint

/-- The operand as a primitive value of the given kind: out of its wrapper, if it has one, and cast
if the value is of another kind. -/
def Operand.asKind (x : Operand) (kind : Kind) : Operand := x.unwrap.castTo (.prim kind)

/-- The rules of the language. The operator applies to `l` and `r`, works on the given pair of
operands in their place, and has a result of the given type. The kind of an operand is the one it
has after unboxing; a string has none. -/
inductive BinaryOp.Operates (l r : Operand) : BinaryOp → Operand × Operand → Ty → Prop where
  | concatenation (h : l.ty = .string ∨ r.ty = .string) : Operates l r .add (l, r) .string
  | arithmetic {op : BinaryOp} {a b : Kind} (hop : op ∈ [.add, .sub, .mul, .div, .rem])
      (ha : l.ty.kind? = some a) (hb : r.ty.kind? = some b) (hanum : a.isNumeric)
      (hbnum : b.isNumeric) :
      Operates l r op (l.asKind (a.join b), r.asKind (a.join b)) (.prim (a.join b))
  | relational {op : BinaryOp} {a b : Kind} (hop : op ∈ [.lt, .le, .gt, .ge])
      (ha : l.ty.kind? = some a) (hb : r.ty.kind? = some b) (hanum : a.isNumeric)
      (hbnum : b.isNumeric) : Operates l r op (l.asKind (a.join b), r.asKind (a.join b)) .boolean
  | bitwiseLogical {op : BinaryOp} (hop : op ∈ [.bitAnd, .bitOr, .bitXor])
      (ha : l.ty.kind? = some .boolean) (hb : r.ty.kind? = some .boolean) :
      Operates l r op (l.asKind .boolean, r.asKind .boolean) .boolean
  | bitwiseIntegral {op : BinaryOp} {a b : Kind} (hop : op ∈ [.bitAnd, .bitOr, .bitXor])
      (ha : l.ty.kind? = some a) (hb : r.ty.kind? = some b) (haint : a.isIntegral)
      (hbint : b.isIntegral) :
      Operates l r op (l.asKind (a.join b), r.asKind (a.join b)) (.prim (a.join b))
  | shift {op : BinaryOp} {a b : Kind} (hop : op ∈ [.shiftLeft, .shiftRight, .shiftRightUnsigned])
      (ha : l.ty.kind? = some a) (hb : r.ty.kind? = some b) (haint : a.isIntegral)
      (hbint : b.isIntegral) :
      Operates l r op
        (l.asKind (if a ∈ [.byte, .short, .char] then .int else a),
          r.asKind (if b ∈ [.byte, .short, .char] then .int else b))
        (.prim (if a ∈ [.byte, .short, .char] then .int else a))
  | conditional {op : BinaryOp} (hop : op ∈ [.and, .or]) (ha : l.ty.kind? = some .boolean)
      (hb : r.ty.kind? = some .boolean) :
      Operates l r op (l.asKind .boolean, r.asKind .boolean) .boolean
  | sameReference {op : BinaryOp} (hop : op ∈ [.eq, .ne]) (hl : l.ty.isReference)
      (hr : r.ty.isReference) : Operates l r op (l, r) .boolean
  | equalNumbers {op : BinaryOp} {a b : Kind} (hop : op ∈ [.eq, .ne])
      (hprim : l.ty.isPrim ∨ r.ty.isPrim) (ha : l.ty.kind? = some a) (hb : r.ty.kind? = some b)
      (hanum : a.isNumeric) (hbnum : b.isNumeric) :
      Operates l r op (l.asKind (a.join b), r.asKind (a.join b)) .boolean
  | equalBooleans {op : BinaryOp} (hop : op ∈ [.eq, .ne]) (hprim : l.ty.isPrim ∨ r.ty.isPrim)
      (ha : l.ty.kind? = some .boolean) (hb : r.ty.kind? = some .boolean) :
      Operates l r op (l.asKind .boolean, r.asKind .boolean) .boolean

/-- The operators of a family. -/
def Family.operators : Family → List BinaryOp
  | arithmetic => [.add, .sub, .mul, .div, .rem]
  | relational => [.lt, .le, .gt, .ge]
  | bitwise => [.bitAnd, .bitOr, .bitXor]
  | shift => [.shiftLeft, .shiftRight, .shiftRightUnsigned]
  | conditional => [.and, .or]
  | equality => [.eq, .ne]

theorem Family.mem_operators_iff {op : BinaryOp} {f : Family} :
    op ∈ f.operators ↔ op.family = f := by
  cases f <;> cases op <;> decide

theorem Kind.isNumeric_of_isIntegral {kind : Kind} (h : kind.isIntegral) : kind.isNumeric := by
  cases kind with
  | boolean => cases h
  | _ => rfl

theorem Kind.promoted_eq (kind : Kind) :
    kind.promoted = if kind ∈ [.byte, .short, .char] then .int else kind := by
  cases kind <;> rfl

theorem Ty.ne_string_of_kind? {t : Ty} {kind : Kind} (h : t.kind? = some kind) : t ≠ .string := by
  rintro rfl
  have hnone : Ty.string.kind? = none := by decide
  cases hnone.symm.trans h

theorem Ty.isPrim_or_isClass {t : Ty} {kind : Kind} (h : t.kind? = some kind) :
    t.isPrim ∨ t.isClass := by
  cases t with
  | prim k => exact .inl rfl
  | ofClass c => exact .inr rfl
  | _ => cases h

theorem Ty.isNull_of_kind? {t : Ty} {kind : Kind} (h : t.kind? = some kind) : t.isNull = false := by
  cases t with
  | null => cases h
  | _ => rfl

theorem Ty.kind?_of_unboxed? {t : Ty} {kind : Kind} (h : t.unboxed? = some kind) :
    t.kind? = some kind := by
  cases t with
  | ofClass c => exact h
  | _ => cases h

theorem Ty.isReference_of_isClass {t : Ty} (h : t.isClass) : t.isReference := by
  obtain ⟨c, rfl⟩ := Ty.isClass_iff.1 h
  rfl

namespace Operand

variable {x y : Operand} {kind : Kind}

theorem asKind_ty (x : Operand) (kind : Kind) : (x.asKind kind).ty = .prim kind := castTo_ty _ _

theorem unwrap_of_unboxed? (h : x.ty.unboxed? = none) : x.unwrap = x := by rw [unwrap, h]

theorem unwrap_of_isPrim (h : x.ty.isPrim) : x.unwrap = x := by
  obtain ⟨k, hk⟩ := Ty.isPrim_iff.1 h
  exact unwrap_of_unboxed? (by rw [hk]; rfl)

theorem unboxed?_unwrap (x : Operand) : x.unwrap.ty.unboxed? = none := by
  unfold unwrap
  split
  · rfl
  · assumption

theorem asKind_of_kind? (h : x.ty.kind? = some kind) : x.asKind kind = x.unwrap := by
  rw [asKind, castTo, if_pos (unwrap_ty_of_kind? h)]

theorem unwrap_unwrap (x : Operand) : x.unwrap.unwrap = x.unwrap :=
  unwrap_of_unboxed? x.unboxed?_unwrap

theorem promote_unwrap (h : x.ty.kind? = some kind) :
    x.unwrap.promote = x.asKind kind.promoted := by
  have hty := unwrap_ty_of_kind? h
  rw [promote, unwrap_unwrap, hty, Kind.promoted, asKind]
  cases hwidened : kind.widened? with
  | some k =>
      have hnumeric : (Ty.prim kind).isNumeric := by
        revert hwidened
        cases kind <;> simp [Kind.widened?, Ty.isNumeric, Ty.kind?, Ty.prim?, Kind.isNumeric]
      simp [hnumeric, Ty.prim?, hwidened]
  | none => simp [Ty.prim?, hwidened, castTo, hty]

/-- The operand itself, or a primitive value taken from it. -/
def Values (x y : Operand) : Prop := y = x ∨ x.ty.kind?.isSome ∧ y.ty.isPrim

theorem Values.unwrap (h : x.Values y) : x.Values y.unwrap := by
  cases hunboxed : y.ty.unboxed? with
  | none =>
      rw [unwrap_of_unboxed? hunboxed]
      exact h
  | some k =>
      refine .inr ⟨?_, by simp [Operand.unwrap, hunboxed, unboxAs, Ty.isPrim]⟩
      rcases h with rfl | ⟨hkind, -⟩
      · rw [Ty.kind?_of_unboxed? hunboxed]
        rfl
      · exact hkind

theorem Values.castPrim (h : x.Values y) (hprim : y.ty.isPrim) (k : Kind) :
    x.Values (y.castTo (.prim k)) := by
  refine .inr ⟨?_, by rw [castTo_ty]; rfl⟩
  rcases h with rfl | ⟨hkind, -⟩
  · obtain ⟨k', hk'⟩ := Ty.isPrim_iff.1 hprim
    rw [hk']
    rfl
  · exact hkind

theorem Values.promote (h : x.Values y) : x.Values y.promote := by
  unfold Operand.promote
  split
  · split
    next k hk =>
      obtain ⟨narrow, hnarrow, -⟩ := Option.bind_eq_some_iff.1 hk
      exact h.unwrap.castPrim (Ty.isPrim_iff.2 ⟨narrow, Ty.prim?_eq_some.1 hnarrow⟩) k
    · exact h.unwrap
  · exact h

theorem Values.string (h : x.Values y) (hy : y.ty = .string) : x.ty = .string := by
  rcases h with rfl | ⟨-, hprim⟩
  · exact hy
  · rw [hy] at hprim
    cases hprim

theorem Values.reference (h : x.Values y) (hy : y.ty.isReference) : x.ty.isReference := by
  rcases h with rfl | ⟨-, hprim⟩
  · exact hy
  · obtain ⟨k, hk⟩ := Ty.isPrim_iff.1 hprim
    rw [hk] at hy
    cases hy

theorem Values.kind? (h : x.Values y) (hy : y.ty.isPrim) : x.ty.kind?.isSome := by
  rcases h with rfl | ⟨hkind, -⟩
  · obtain ⟨k, hk⟩ := Ty.isPrim_iff.1 hy
    rw [hk]
    rfl
  · exact hkind

end Operand

namespace BinaryOp

variable {op : BinaryOp} {l r : Operand} {a b : Kind}

theorem concatenates_iff {left right : Ty} :
    op.concatenates left right ↔ op = .add ∧ (left = .string ∨ right = .string) := by
  simp [concatenates, Ty.isString]

/-- Conversion takes a primitive value from an operand or leaves it alone. -/
theorem values_convert (op : BinaryOp) (l r : Operand) :
    l.Values (op.convert l r).1 ∧ r.Values (op.convert l r).2 := by
  unfold convert
  generalize hpair : (if op.unwraps l.ty r.ty then (l.unwrap, r.unwrap) else (l, r)) = pair
  obtain ⟨u, w⟩ := pair
  have hvalues : l.Values u ∧ r.Values w := by
    split at hpair
    · cases hpair
      exact ⟨Operand.Values.unwrap (.inl rfl), Operand.Values.unwrap (.inl rfl)⟩
    · cases hpair
      exact ⟨.inl rfl, .inl rfl⟩
  obtain ⟨hu, hw⟩ := hvalues
  dsimp only
  split
  · exact ⟨hu.promote, hw.promote⟩
  · split
    · split
      next a b hnum =>
        obtain ⟨ha, hb, -⟩ := numericPair?_eq_some hnum
        exact ⟨hu.castPrim (Ty.isPrim_iff.2 ⟨a, ha⟩) _, hw.castPrim (Ty.isPrim_iff.2 ⟨b, hb⟩) _⟩
      · exact ⟨hu, hw⟩
    · exact ⟨hu, hw⟩

theorem convert_of_concatenates (h : op.concatenates l.ty r.ty) : op.convert l r = (l, r) := by
  obtain ⟨rfl, hstring⟩ := concatenates_iff.1 h
  have hunwraps : unwraps .add l.ty r.ty = false := by simp [unwraps, h]
  have hpair : numericPair? l.ty r.ty = none := by
    rcases hstring with hl | hr
    · rw [hl]
      rfl
    · rw [hr]
      cases l.ty <;> rfl
  simp [convert, hunwraps, family, hpair]

theorem convert_of_references (hop : op.family = .equality) (hl : l.ty.isReference)
    (hr : r.ty.isReference) : op.convert l r = (l, r) := by
  have hlprim : l.ty.isPrim = false := by
    revert hl
    cases l.ty <;> simp [Ty.isReference, Ty.isPrim]
  have hrprim : r.ty.isPrim = false := by
    revert hr
    cases r.ty <;> simp [Ty.isReference, Ty.isPrim]
  have hunwraps : op.unwraps l.ty r.ty = false := by simp [unwraps, hop, hlprim, hrprim]
  have hpair : numericPair? l.ty r.ty = none := by
    revert hlprim
    cases l.ty <;> simp [numericPair?, Ty.isPrim]
  simp [convert, hunwraps, hop, promotesOperands, hpair]

/-! ### Primitive values -/

/-- The operator takes the values of its operands out of their wrappers: both operands have a kind,
and an equality has a primitive operand. -/
structure TakesValues (op : BinaryOp) (l r : Operand) (a b : Kind) : Prop where
  left : l.ty.kind? = some a
  right : r.ty.kind? = some b
  equality : op.family = .equality → l.ty.isPrim ∨ r.ty.isPrim

theorem TakesValues.unwraps (h : op.TakesValues l r a b) :
    (if op.unwraps l.ty r.ty then (l.unwrap, r.unwrap) else (l, r)) = (l.unwrap, r.unwrap) := by
  split
  · rfl
  next hnot =>
    -- With nothing to unwrap both operands are primitive already.
    have hconcat : op.concatenates l.ty r.ty = false := by
      rw [← Bool.not_eq_true, concatenates_iff]
      rintro ⟨-, hl | hr⟩
      · exact Ty.ne_string_of_kind? h.left hl
      · exact Ty.ne_string_of_kind? h.right hr
    have hprims : l.ty.isPrim ∧ r.ty.isPrim := by
      have hl := Ty.isPrim_or_isClass h.left
      have hr := Ty.isPrim_or_isClass h.right
      have hequality := h.equality
      simp only [BinaryOp.unwraps, Ty.isNull_of_kind? h.left, Ty.isNull_of_kind? h.right,
        hconcat] at hnot
      grind
    rw [Operand.unwrap_of_isPrim hprims.1, Operand.unwrap_of_isPrim hprims.2]

/-- The kinds to which an operator brings two primitive values. -/
def operandKinds (op : BinaryOp) (a b : Kind) : Kind × Kind :=
  match op.family with
  | .shift => (a.promoted, b.promoted)
  | .conditional => (a, b)
  | .arithmetic | .relational | .bitwise | .equality =>
    if a.isNumeric && b.isNumeric then (a.join b, a.join b) else (a, b)

theorem TakesValues.convert (h : op.TakesValues l r a b) :
    op.convert l r = (l.asKind (op.operandKinds a b).1, r.asKind (op.operandKinds a b).2) := by
  have hl := Operand.unwrap_ty_of_kind? h.left
  have hr := Operand.unwrap_ty_of_kind? h.right
  have hkeep : (l.asKind a, r.asKind b) = (l.unwrap, r.unwrap) := by
    rw [Operand.asKind_of_kind? h.left, Operand.asKind_of_kind? h.right]
  unfold BinaryOp.convert operandKinds promotesOperands
  rw [h.unwraps]
  dsimp only
  cases op.family with
  | shift => simp [Operand.promote_unwrap h.left, Operand.promote_unwrap h.right]
  | conditional => simp [hkeep]
  | _ =>
      by_cases hnum : a.isNumeric && b.isNumeric
      · simp [hl, hr, numericPair?, hnum, Operand.asKind]
      · simp [hl, hr, numericPair?, hnum, hkeep]

theorem prims_of_numericPair? {left right : Ty} (h : (numericPair? left right).isSome) :
    left.isPrim ∧ right.isPrim := by
  obtain ⟨⟨a, b⟩, hpair⟩ := Option.isSome_iff_exists.1 h
  obtain ⟨rfl, rfl, -⟩ := numericPair?_eq_some hpair
  exact ⟨rfl, rfl⟩

theorem prims_of_booleanPair {left right : Ty} (h : booleanPair left right) :
    left.isPrim ∧ right.isPrim := by
  obtain ⟨hl, hr⟩ := Bool.and_eq_true_iff.1 h
  rw [eq_of_beq hl, eq_of_beq hr]
  exact ⟨rfl, rfl⟩

/-- Unless strings are joined or references compared, both converted operands are primitive. -/
theorem prims_of_result? {left right ty : Ty} (h : op.result? left right = some ty)
    (hconcat : ¬op.concatenates left right)
    (href : ¬(op.family = .equality ∧ left.isReference ∧ right.isReference)) :
    left.isPrim ∧ right.isPrim := by
  by_cases hnum : (numericPair? left right).isSome
  · exact prims_of_numericPair? hnum
  by_cases hbool : booleanPair left right
  · exact prims_of_booleanPair hbool
  rw [Option.not_isSome_iff_eq_none] at hnum
  rw [result?, if_neg hconcat] at h
  cases hfamily : op.family with
  | equality =>
      have hrefs : ¬(left.isReference ∧ right.isReference) := fun hrefs => href ⟨hfamily, hrefs⟩
      simp [hfamily, hnum, hbool, hrefs] at h
  | _ => simp [hfamily, integralPair?, hnum, hbool] at h

/-- The result for two primitive values that were brought to the kinds of the operator. -/
theorem result?_prim (op : BinaryOp) (a b : Kind) :
    op.result? (.prim (op.operandKinds a b).1) (.prim (op.operandKinds a b).2) =
      match op.family with
      | .arithmetic => if a.isNumeric ∧ b.isNumeric then some (.prim (a.join b)) else none
      | .shift => if a.isIntegral ∧ b.isIntegral then some (.prim a.promoted) else none
      | .relational => if a.isNumeric ∧ b.isNumeric then some .boolean else none
      | .equality => if a.isNumeric ↔ b.isNumeric then some .boolean else none
      | .bitwise =>
        if a = .boolean ∧ b = .boolean then some .boolean
        else if a.isIntegral ∧ b.isIntegral then some (.prim (a.join b)) else none
      | .conditional => if a = .boolean ∧ b = .boolean then some .boolean else none := by
  have hconcat (left right : Kind) : op.concatenates (.prim left) (.prim right) = false := by
    simp [concatenates, Ty.isString, Ty.string]
  rw [result?, hconcat, operandKinds]
  cases op.family <;> cases a <;> cases b <;> rfl

theorem TakesValues.result? (h : op.TakesValues l r a b) :
    op.result? (op.convert l r).1.ty (op.convert l r).2.ty =
      op.result? (.prim (op.operandKinds a b).1) (.prim (op.operandKinds a b).2) := by
  rw [h.convert, Operand.asKind_ty, Operand.asKind_ty]

theorem TakesValues.gives (h : op.TakesValues l r a b) {k m : Kind} {ty : Ty}
    (hkinds : op.operandKinds a b = (k, m))
    (hresult : op.result? (.prim (op.operandKinds a b).1) (.prim (op.operandKinds a b).2) =
      some ty) :
    op.convert l r = (l.asKind k, r.asKind m) ∧
      op.result? (l.asKind k).ty (r.asKind m).ty = some ty := by
  rw [h.convert, Operand.asKind_ty, Operand.asKind_ty]
  rw [hkinds] at hresult ⊢
  exact ⟨rfl, hresult⟩

/-- If the operator has a result for two values, it works on them by one of the rules. -/
theorem TakesValues.operates (h : op.TakesValues l r a b) {ty : Ty}
    (hresult : op.result? (op.convert l r).1.ty (op.convert l r).2.ty = some ty) :
    op.Operates l r (op.convert l r) ty := by
  rw [h.result?, result?_prim] at hresult
  rw [h.convert]
  have hop := Family.mem_operators_iff.2 (rfl : op.family = op.family)
  unfold operandKinds
  cases hfamily : op.family with
  | arithmetic =>
      simp only [hfamily] at hresult hop ⊢
      split at hresult
      next hnum =>
        cases hresult
        rw [if_pos (by simp [hnum])]
        exact .arithmetic hop h.left h.right hnum.1 hnum.2
      · cases hresult
  | relational =>
      simp only [hfamily] at hresult hop ⊢
      split at hresult
      next hnum =>
        cases hresult
        rw [if_pos (by simp [hnum])]
        exact .relational hop h.left h.right hnum.1 hnum.2
      · cases hresult
  | bitwise =>
      simp only [hfamily] at hresult hop ⊢
      split at hresult
      next hbool =>
        obtain ⟨rfl, rfl⟩ := hbool
        cases hresult
        exact .bitwiseLogical hop h.left h.right
      · split at hresult
        next hint =>
          cases hresult
          have hanum := Kind.isNumeric_of_isIntegral hint.1
          have hbnum := Kind.isNumeric_of_isIntegral hint.2
          rw [if_pos (by simp [hanum, hbnum])]
          exact .bitwiseIntegral hop h.left h.right hint.1 hint.2
        · cases hresult
  | shift =>
      simp only [hfamily] at hresult hop ⊢
      split at hresult
      next hint =>
        cases hresult
        rw [Kind.promoted_eq, Kind.promoted_eq]
        exact .shift hop h.left h.right hint.1 hint.2
      · cases hresult
  | conditional =>
      simp only [hfamily] at hresult hop ⊢
      split at hresult
      next hbool =>
        obtain ⟨rfl, rfl⟩ := hbool
        cases hresult
        exact .conditional hop h.left h.right
      · cases hresult
  | equality =>
      have hprim := h.equality hfamily
      simp only [hfamily] at hresult hop ⊢
      split at hresult
      next hsame =>
        cases hresult
        by_cases hanum : a.isNumeric
        · have hbnum := hsame.1 hanum
          rw [if_pos (by simp [hanum, hbnum])]
          exact .equalNumbers hop hprim h.left h.right hanum hbnum
        · obtain rfl : a = .boolean := by simpa [Kind.isNumeric] using hanum
          obtain rfl : b = .boolean := by simpa [Kind.isNumeric] using hsame
          exact .equalBooleans hop hprim h.left h.right
      · cases hresult

/-- If the operator has a result for the converted operands, it works on them by one of the rules.
-/
theorem operates_of_result? {ty : Ty}
    (h : op.result? (op.convert l r).1.ty (op.convert l r).2.ty = some ty) :
    op.Operates l r (op.convert l r) ty := by
  by_cases hconcat : op.concatenates l.ty r.ty
  · rw [convert_of_concatenates hconcat] at h ⊢
    obtain ⟨rfl, hstring⟩ := concatenates_iff.1 hconcat
    rw [BinaryOp.result?, if_pos hconcat] at h
    cases h
    exact .concatenation hstring
  by_cases href : op.family = .equality ∧ l.ty.isReference ∧ r.ty.isReference
  · obtain ⟨hfamily, hl, hr⟩ := href
    rw [convert_of_references hfamily hl hr] at h ⊢
    rw [BinaryOp.result?, if_neg hconcat, hfamily] at h
    simp only [hl, hr, Bool.and_self, Bool.or_true, if_true] at h
    cases h
    exact .sameReference (Family.mem_operators_iff.2 hfamily) hl hr
  obtain ⟨hl, hr⟩ := values_convert op l r
  -- No string and no reference comes out of a conversion that did not go in.
  have hprims : (op.convert l r).1.ty.isPrim ∧ (op.convert l r).2.ty.isPrim := by
    refine prims_of_result? h (fun hnew => hconcat ?_) (fun hnew => href ?_)
    · obtain ⟨hop, hstring⟩ := concatenates_iff.1 hnew
      exact concatenates_iff.2 ⟨hop, hstring.imp hl.string hr.string⟩
    · exact ⟨hnew.1, hl.reference hnew.2.1, hr.reference hnew.2.2⟩
  obtain ⟨a, ha⟩ := Option.isSome_iff_exists.1 (hl.kind? hprims.1)
  obtain ⟨b, hb⟩ := Option.isSome_iff_exists.1 (hr.kind? hprims.2)
  refine TakesValues.operates ⟨ha, hb, fun hfamily => ?_⟩ h
  by_contra hnone
  rw [not_or] at hnone
  have hlclass := (Ty.isPrim_or_isClass ha).resolve_left hnone.1
  have hrclass := (Ty.isPrim_or_isClass hb).resolve_left hnone.2
  exact href ⟨hfamily, Ty.isReference_of_isClass hlclass, Ty.isReference_of_isClass hrclass⟩

/-- Where a rule applies, conversion gives the operands and the result that the rule gives. -/
theorem Operates.result? {pair : Operand × Operand} {ty : Ty} (h : op.Operates l r pair ty) :
    op.convert l r = pair ∧ op.result? pair.1.ty pair.2.ty = some ty := by
  cases h with
  | concatenation hstring =>
      have hconcat := concatenates_iff.2 ⟨rfl, hstring⟩
      exact ⟨convert_of_concatenates hconcat, by rw [BinaryOp.result?, if_pos hconcat]⟩
  | sameReference hop hl hr =>
      have hfamily : op.family = .equality := Family.mem_operators_iff.1 hop
      refine ⟨convert_of_references hfamily hl hr, ?_⟩
      have hconcat : op.concatenates l.ty r.ty = false := by
        rw [← Bool.not_eq_true, concatenates_iff]
        rintro ⟨rfl, -⟩
        cases hfamily
      rw [BinaryOp.result?, hconcat, hfamily]
      simp [hl, hr]
  | arithmetic hop ha hb hanum hbnum =>
      have hfamily : op.family = .arithmetic := Family.mem_operators_iff.1 hop
      refine TakesValues.gives ⟨ha, hb, by simp [hfamily]⟩ ?_ ?_
      · simp [operandKinds, hfamily, hanum, hbnum]
      · simp [result?_prim, hfamily, hanum, hbnum]
  | relational hop ha hb hanum hbnum =>
      have hfamily : op.family = .relational := Family.mem_operators_iff.1 hop
      refine TakesValues.gives ⟨ha, hb, by simp [hfamily]⟩ ?_ ?_
      · simp [operandKinds, hfamily, hanum, hbnum]
      · simp [result?_prim, hfamily, hanum, hbnum]
  | bitwiseLogical hop ha hb =>
      have hfamily : op.family = .bitwise := Family.mem_operators_iff.1 hop
      refine TakesValues.gives ⟨ha, hb, by simp [hfamily]⟩ ?_ ?_
      · simp [operandKinds, hfamily, Kind.isNumeric]
      · simp [result?_prim, hfamily]
  | @bitwiseIntegral _ a b hop ha hb haint hbint =>
      have hfamily : op.family = .bitwise := Family.mem_operators_iff.1 hop
      have hboolean : ¬(a = .boolean ∧ b = .boolean) := by
        rintro ⟨rfl, -⟩
        cases haint
      refine TakesValues.gives ⟨ha, hb, by simp [hfamily]⟩ ?_ ?_
      · simp [operandKinds, hfamily, Kind.isNumeric_of_isIntegral, haint, hbint]
      · simp [result?_prim, hfamily, hboolean, haint, hbint]
  | shift hop ha hb haint hbint =>
      have hfamily : op.family = .shift := Family.mem_operators_iff.1 hop
      refine TakesValues.gives ⟨ha, hb, by simp [hfamily]⟩ ?_ ?_
      · simp only [operandKinds, hfamily, Kind.promoted_eq]
      · simp only [result?_prim, hfamily, haint, hbint, and_self, if_true, Kind.promoted_eq]
  | conditional hop ha hb =>
      have hfamily : op.family = .conditional := Family.mem_operators_iff.1 hop
      refine TakesValues.gives ⟨ha, hb, by simp [hfamily]⟩ ?_ ?_
      · simp [operandKinds, hfamily]
      · simp [result?_prim, hfamily]
  | equalNumbers hop hprim ha hb hanum hbnum =>
      have hfamily : op.family = .equality := Family.mem_operators_iff.1 hop
      refine TakesValues.gives ⟨ha, hb, fun _ => hprim⟩ ?_ ?_
      · simp [operandKinds, hfamily, hanum, hbnum]
      · simp [result?_prim, hfamily, hanum, hbnum]
  | equalBooleans hop hprim ha hb =>
      have hfamily : op.family = .equality := Family.mem_operators_iff.1 hop
      refine TakesValues.gives ⟨ha, hb, fun _ => hprim⟩ ?_ ?_
      · simp [operandKinds, hfamily, Kind.isNumeric]
      · simp [result?_prim, hfamily]

/-- A rule for values makes both operands primitive, and of one kind unless it is that of a shift.
-/
theorem Operates.prims {pair : Operand × Operand} {ty : Ty} (h : op.Operates l r pair ty)
    (hconcat : ¬(op = .add ∧ (l.ty = .string ∨ r.ty = .string)))
    (href : ¬(op ∈ [.eq, .ne] ∧ l.ty.isReference ∧ r.ty.isReference)) :
    ∃ a b, pair.1.ty = .prim a ∧ pair.2.ty = .prim b ∧
      (op ∈ [.shiftLeft, .shiftRight, .shiftRightUnsigned] ∨ a = b) := by
  cases h with
  | concatenation hstring => exact absurd ⟨rfl, hstring⟩ hconcat
  | sameReference hop hl hr => exact absurd ⟨hop, hl, hr⟩ href
  | shift hop => exact ⟨_, _, Operand.asKind_ty _ _, Operand.asKind_ty _ _, .inl hop⟩
  | _ => exact ⟨_, _, Operand.asKind_ty _ _, Operand.asKind_ty _ _, .inr rfl⟩

end BinaryOp

/-- Conversion followed by the choice of a result type follows the rules of the language: a result
type is found, and operands are made, exactly as one of the rules says. Where neither strings are
joined nor references compared, both operands become primitive, and of one kind unless they are
shifted. -/
theorem operators_follow_rules (op : BinaryOp) (l r : Operand) (pair : Operand × Operand)
    (ty : Ty) :
    (op.convert l r = pair ∧ op.result? pair.1.ty pair.2.ty = some ty ↔
      op.Operates l r pair ty) ∧
    (op.Operates l r pair ty → ¬(op = .add ∧ (l.ty = .string ∨ r.ty = .string)) →
      ¬(op ∈ [.eq, .ne] ∧ l.ty.isReference ∧ r.ty.isReference) →
      ∃ a b, pair.1.ty = .prim a ∧ pair.2.ty = .prim b ∧
        (op ∈ [.shiftLeft, .shiftRight, .shiftRightUnsigned] ∨ a = b)) := by
  refine ⟨⟨?_, BinaryOp.Operates.result?⟩, BinaryOp.Operates.prims⟩
  rintro ⟨rfl, hresult⟩
  exact BinaryOp.operates_of_result? hresult

/-- A boxed `int` is less than a `byte`: one is unboxed and the other cast. A `byte` is shifted by a
boxed `short`: each is cast to `int` by itself, the one out of its wrapper first. -/
theorem operators_follow_rules_boxedLess :
    let i : Operand := ⟨.localVar "i" .frame, .boxed .int⟩
    let b : Operand := ⟨.localVar "b" .frame, .prim .byte⟩
    let s : Operand := ⟨.localVar "s" .frame, .boxed .short⟩
    let compared : Operand × Operand := (⟨.unbox i.tree .int, .int⟩, ⟨.cast b.tree .int, .int⟩)
    let shifted : Operand × Operand :=
      (⟨.cast b.tree .int, .int⟩, ⟨.cast (.unbox s.tree .short) .int, .int⟩)
    (BinaryOp.lt.Operates i b compared .boolean ∧
      ∃ x y, compared.1.ty = .prim x ∧ compared.2.ty = .prim y ∧
        (.lt ∈ [BinaryOp.shiftLeft, .shiftRight, .shiftRightUnsigned] ∨ x = y)) ∧
    BinaryOp.shiftLeft.convert b s = shifted ∧
      BinaryOp.shiftLeft.result? shifted.1.ty shifted.2.ty = some .int := by
  intro i b s compared shifted
  constructor
  · have hrules := operators_follow_rules .lt i b compared .boolean
    have hoperates : BinaryOp.lt.Operates i b compared .boolean := hrules.1.1 ⟨rfl, rfl⟩
    exact ⟨hoperates, hrules.2 hoperates (by decide) (by decide)⟩
  · refine (operators_follow_rules .shiftLeft b s shifted .int).1.2 ?_
    exact .shift (a := .byte) (b := .short) List.mem_cons_self rfl rfl rfl rfl

end Breakpoint
