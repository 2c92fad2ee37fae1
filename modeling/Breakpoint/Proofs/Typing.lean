import Breakpoint.Proofs.ExprRules
import Breakpoint.Proofs.Statement

/-!
Types of compiled trees. Some nodes fix the type of their value by themselves; where they do, the
node around them has to find the type it was built for. Whether it does depends on the types noted
in the source, so the source is asked for notes that agree with its own nodes. Then every conversion
in a compiled tree, every operation and every test finds an operand of the type it needs.
-/

namespace Breakpoint

/-- Two numbers of these types need no more conversion: they are promoted and, except in a shift, of
one kind. -/
def BinaryOp.Settled (op : BinaryOp) (left right : Ty) : Prop :=
  ∀ l r, numericPair? left right = some (l, r) →
    l.promoted = l ∧ r.promoted = r ∧ (op.family ≠ .shift → l = r)

namespace Tree

/-- The type that a node fixes by itself. -/
def ownTy? : Tree → Option Ty
  | .literal _ ty | .cast _ ty | .binary _ _ _ ty | .unary _ _ ty | .newArray ty _ _ => some ty
  | .box _ kind => some (.boxed kind)
  | .unbox _ kind => some (.prim kind)
  | .instanceOf .. => some .boolean
  | .newInstance c _ _ => some (.ofClass c)
  | .call _ method _ => some method.returnType
  | _ => none

/-- A tree whose type is `ty` or is not fixed. -/
def Has (t : Tree) (ty : Ty) : Prop := ∀ s, t.ownTy? = some s → s = ty

/-- A node that finds operands of the types it was built for. -/
def Typed : Tree → Prop
  | .box operand kind => operand.Has (.prim kind)
  | .unbox operand kind => operand.Has (.boxed kind)
  | .cast operand ty => ∀ source, operand.ownTy? = some source → source.CastsTo ty
  | .unary op operand ty =>
    operand.Has ty ∧ ∃ kind, ty = .prim kind ∧ View.unaryAccepts op kind ∧ kind.promoted = kind
  | .binary op left right ty =>
    ∃ l r, left.Has l ∧ right.Has r ∧ op.Settled l r ∧ op.result? l r = some ty
  | .conditional condition _ _ | .ifElse _ condition _ _ | .whileLoop _ condition _
  | .doLoop _ _ condition | .forLoop _ _ (some condition) _ _ => condition.Has .boolean
  | .instanceOf operand _ => ∀ source, operand.ownTy? = some source → ¬source.isPrim
  | .element array index => (∀ ty, array.ownTy? = some ty → ty.isArray) ∧ index.Has .int
  | .newArray ty dimension _ => ty.isArray ∧ ∀ length ∈ dimension, length.Has .int
  | _ => True

end Tree

/-- The type of a binary operation on operands of these types, which are converted first. -/
def BinaryOp.typeOf? (op : BinaryOp) (left right : Ty) : Option Ty :=
  let converted := op.convert ⟨default, left⟩ ⟨default, right⟩
  op.result? converted.1.ty converted.2.ty

namespace Expr

/-- The type of a chain that goes on after a left part of type `left`. -/
def foldTy? (left : Ty) : List Expr → List BinaryOp → Option Ty
  | e :: rest, op :: ops =>
    e.ty?.bind fun right => (op.typeOf? left right).bind fun ty => foldTy? ty rest ops
  | _, _ => some left

/-- The type noted on a node is the one that its parts give. Nodes whose parts give none are free.
-/
def Agrees (e : Expr) : Prop :=
  ∀ ty, e.ty? = some ty →
    match e with
    | .literal _ value => ty = value.ty
    | .name _ _ _ (.localVar d) => ty = d.ty
    | .paren _ inner => inner.ty? = some ty
    | .chain _ (first :: rest) ops => (first.ty?.bind fun left => foldTy? left rest ops) = some ty
    | .unary _ .not _ | .instanceOf .. => ty = .boolean
    | .unary _ _ operand =>
      ((operand.ty?.bind Ty.kind?).map fun kind => .prim kind.promoted) = some ty
    | .cast _ target _ => ty = target
    | .call _ _ _ (some m) _ => ty = m.returnType
    | .newInstance _ c .. => ty = .ofClass c
    | _ => True

/-- A tree of typed nodes that has the type noted on the expression, if there is one. -/
def Fits (e : Expr) (t : Tree) : Prop := t.Every Tree.Typed ∧ ∀ ty, e.ty? = some ty → t.Has ty

end Expr

/-- What an expression has to compile to in a role: a brace list stands for the array it is needed
for, whatever type is noted on it. -/
def Role.Fits (role : Role) (e : Expr) (t : Tree) : Prop :=
  match role with
  | .initializer ty => t.Every Tree.Typed ∧ t.Has ty
  | .value | .receiver | .target => e.Fits t

namespace Operand

/-- A tree of typed nodes that has the type carried beside it. -/
def Typed (x : Operand) : Prop := x.tree.Every Tree.Typed ∧ x.tree.Has x.ty

theorem Typed.converts {x y : Operand} (hx : x.Typed) (hxy : x.Converts y) : y.Typed := by
  induction hxy with
  | refl => exact hx
  | cast _ hty ih =>
      refine ⟨Tree.every_iff.2 ⟨fun s hs => ?_, by simpa [Tree.children] using ih.1⟩, ?_⟩
      · rw [ih.2 s hs]
        exact hty
      · intro s hs
        exact (Option.some.inj hs).symm
  | box _ hty ih =>
      refine ⟨Tree.every_iff.2 ⟨?_, by simpa [boxAs, Tree.children] using ih.1⟩, ?_⟩
      · intro s hs
        rw [ih.2 s hs, hty]
      · intro s hs
        exact (Option.some.inj hs).symm
  | unbox _ hty ih =>
      refine ⟨Tree.every_iff.2 ⟨?_, by simpa [unboxAs, Tree.children] using ih.1⟩, ?_⟩
      · intro s hs
        rw [ih.2 s hs, hty]
      · intro s hs
        exact (Option.some.inj hs).symm

theorem convertTo_ty (x : Operand) (target : Ty) : (x.convertTo target).ty = target := by
  unfold convertTo
  split
  · assumption
  · split
    · split <;> exact castTo_ty _ _
    · split
      · rfl
      · exact castTo_ty _ _
    · exact castTo_ty _ _

theorem unwrap_ty_congr {x y : Operand} (h : x.ty = y.ty) : x.unwrap.ty = y.unwrap.ty := by
  unfold unwrap
  rw [h]
  split
  · rfl
  · exact h

/-- A numeric operand gets its promoted kind. -/
theorem promote_ty_of_kind? {x : Operand} {kind : Kind} (h : x.ty.kind? = some kind)
    (hnumeric : x.promote.ty.prim?.any Kind.isNumeric) : x.promote.ty = .prim kind.promoted := by
  have hunwrap := unwrap_ty_of_kind? h
  unfold promote at hnumeric ⊢
  split
  · rw [hunwrap, Kind.promoted]
    cases hwidened : kind.widened? with
    | some k => simpa [Ty.prim?, hwidened] using castTo_ty _ _
    | none => simpa [Ty.prim?, hwidened] using hunwrap
  next hnot =>
    rw [if_neg hnot] at hnumeric
    refine absurd ?_ hnot
    unfold Ty.isNumeric Ty.kind?
    cases hprim : x.ty.prim? with
    | none => simp [hprim] at hnumeric
    | some k => simpa [hprim] using hnumeric

/-- Promotion leaves no number that could be promoted. -/
theorem promoted_of_promote_ty {x : Operand} {kind : Kind} (h : x.promote.ty = .prim kind)
    (hnumeric : kind.isNumeric) : kind.promoted = kind := by
  unfold promote at h
  split at h
  · split at h
    next widened hwidened =>
      obtain ⟨narrow, -, hnarrow⟩ := Option.bind_eq_some_iff.1 hwidened
      have hkind : widened = kind := Ty.prim.inj ((castTo_ty _ _).symm.trans h)
      subst hkind
      cases narrow <;> cases hnarrow <;> rfl
    next hwidened =>
      have hnone : kind.widened? = none := by simpa [h, Ty.prim?] using hwidened
      simp [Kind.promoted, hnone]
  next hnot =>
    refine absurd ?_ hnot
    simpa [Ty.isNumeric, Ty.kind?, Ty.prim?, h] using hnumeric

theorem promote_ty_congr {x y : Operand} (h : x.ty = y.ty) : x.promote.ty = y.promote.ty := by
  unfold promote
  rw [h, unwrap_ty_congr h]
  split
  · split
    · rw [castTo_ty, castTo_ty]
    · exact unwrap_ty_congr h
  · exact h

end Operand

/-- The types of converted operands depend on the types of the operands alone. -/
theorem BinaryOp.convert_ty_congr (op : BinaryOp) {x x' y y' : Operand} (hx : x.ty = x'.ty)
    (hy : y.ty = y'.ty) : (op.convert x y).1.ty = (op.convert x' y').1.ty ∧
      (op.convert x y).2.ty = (op.convert x' y').2.ty := by
  unfold convert
  rw [← hx, ← hy]
  generalize hpair : (if op.unwraps x.ty y.ty then (x.unwrap, y.unwrap) else (x, y)) = pair
  generalize hpair' : (if op.unwraps x.ty y.ty then (x'.unwrap, y'.unwrap) else (x', y')) = pair'
  obtain ⟨l, r⟩ := pair
  obtain ⟨l', r'⟩ := pair'
  have htys : l.ty = l'.ty ∧ r.ty = r'.ty := by
    split at hpair
    next hunwraps =>
      rw [if_pos hunwraps] at hpair'
      cases hpair
      cases hpair'
      exact ⟨Operand.unwrap_ty_congr hx, Operand.unwrap_ty_congr hy⟩
    next hunwraps =>
      rw [if_neg hunwraps] at hpair'
      cases hpair
      cases hpair'
      exact ⟨hx, hy⟩
  obtain ⟨hl, hr⟩ := htys
  dsimp only
  rw [hl, hr]
  split
  · exact ⟨Operand.promote_ty_congr hl, Operand.promote_ty_congr hr⟩
  · split
    · split
      · simp only [Operand.castTo_ty, and_self]
      · exact ⟨hl, hr⟩
    · exact ⟨hl, hr⟩

theorem BinaryOp.convert_ty (op : BinaryOp) (x y : Operand) :
    (op.convert x y).1.ty = (op.convert ⟨default, x.ty⟩ ⟨default, y.ty⟩).1.ty ∧
      (op.convert x y).2.ty = (op.convert ⟨default, x.ty⟩ ⟨default, y.ty⟩).2.ty :=
  op.convert_ty_congr rfl rfl

theorem Kind.promoted_join (l r : Kind) : (l.join r).promoted = l.join r := by
  unfold join
  split_ifs <;> rfl

/-- No operator that leaves its operands as they are applies to two numbers. -/
theorem BinaryOp.promotesOperands_of_result? {op : BinaryOp} {l r : Kind} {ty : Ty}
    (hl : l.isNumeric) (hshift : op.family ≠ .shift)
    (h : op.result? (.prim l) (.prim r) = some ty) : op.promotesOperands := by
  unfold promotesOperands
  cases hfamily : op.family with
  | shift => exact absurd hfamily hshift
  | conditional =>
      have hboolean : l = .boolean := by
        have hpair : booleanPair (.prim l) (.prim r) := by
          by_contra hnot
          simp [result?, concatenates, Ty.isString, Ty.string, hfamily, hnot] at h
        simpa [booleanPair, Ty.boolean] using (Bool.and_eq_true_iff.1 hpair).1
      rw [hboolean] at hl
      cases hl
  | _ => rfl

/-- Conversion leaves two numbers settled, if the operator applies to them. -/
theorem BinaryOp.settled_convert {op : BinaryOp} {x y : Operand} {ty : Ty}
    (h : op.result? (op.convert x y).1.ty (op.convert x y).2.ty = some ty) :
    op.Settled (op.convert x y).1.ty (op.convert x y).2.ty := by
  intro l r hpair
  obtain ⟨hl, hr, hlnum, hrnum⟩ := numericPair?_eq_some hpair
  rw [hl, hr] at h hpair
  unfold convert at hl hr
  generalize (if op.unwraps x.ty y.ty then (x.unwrap, y.unwrap) else (x, y)) = unwrapped at hl hr
  obtain ⟨left, right⟩ := unwrapped
  dsimp only at hl hr
  by_cases hshift : op.family = .shift
  · rw [if_pos hshift] at hl hr
    exact ⟨Operand.promoted_of_promote_ty hl hlnum, Operand.promoted_of_promote_ty hr hrnum,
      fun hne => absurd hshift hne⟩
  · have hpromotes := promotesOperands_of_result? hlnum hshift h
    rw [if_neg hshift, if_pos hpromotes] at hl hr
    cases hnum : numericPair? left.ty right.ty with
    | some pair =>
        rw [hnum] at hl hr
        have hjoin : pair.1.join pair.2 = l := Ty.prim.inj ((Operand.castTo_ty _ _).symm.trans hl)
        have hjoin' : pair.1.join pair.2 = r := Ty.prim.inj ((Operand.castTo_ty _ _).symm.trans hr)
        rw [← hjoin, ← hjoin']
        exact ⟨Kind.promoted_join _ _, Kind.promoted_join _ _, fun _ => rfl⟩
    | none =>
        rw [hnum] at hl hr
        rw [hl, hr, hpair] at hnum
        cases hnum

namespace Tree

theorem has_of_ownTy?_eq_none {t : Tree} (h : t.ownTy? = none) (ty : Ty) : t.Has ty := by
  intro s hs
  rw [h] at hs
  cases hs

theorem has_of_ownTy?_eq_some {t : Tree} {ty : Ty} (h : t.ownTy? = some ty) : t.Has ty := by
  intro s hs
  rw [h] at hs
  exact (Option.some.inj hs).symm

theorem typed_of_children {t : Tree} (h : t.Typed) (hchildren : ∀ s ∈ t.children, s.Every Typed) :
    t.Every Typed :=
  every_iff.2 ⟨h, hchildren⟩

end Tree

namespace View

open Breakpoint.Tree

variable {v : View}

theorem thisFor_typed (target : ClassId) (excerpt : Excerpt) :
    Yields (fun t => t.Every Typed ∧ t.ownTy? = none) (v.thisFor target excerpt) := by
  unfold Site.thisFor
  cases v.hopDepth target excerpt with
  | ok depth => exact ⟨typed_of_children trivial (by simp [children]), rfl⟩
  | error fault => trivial

theorem memberOwner_typed (declaring : ClassId) (isStatic : Bool) {receiver : Option Tree}
    (excerpt : Excerpt) (hreceiver : ∀ object ∈ receiver, object.Every Typed) :
    Yields (Every Typed) (v.memberOwner declaring isStatic receiver excerpt) := by
  unfold Site.memberOwner
  split
  · exact typed_of_children trivial (by simp [children])
  · cases receiver with
    | some object => exact hreceiver object rfl
    | none => exact (v.thisFor_typed declaring excerpt).imp fun _ => And.left

theorem fieldAccess_typed (d : FieldDecl) {receiver : Option Tree} (excerpt : Excerpt)
    (hreceiver : ∀ object ∈ receiver, object.Every Typed) :
    Yields (fun t => t.Every Typed ∧ t.ownTy? = none) (v.fieldAccess d receiver excerpt) :=
  (memberOwner_typed d.declaring d.modifiers.isStatic excerpt hreceiver).map fun _ h =>
    ⟨typed_of_children trivial (by simpa [children] using h), rfl⟩

/-- A local fixes no type, unless it is replaced by its constant, which has its type. -/
theorem localAccess_typed (d : LocalDecl) (excerpt : Excerpt) :
    Yields (fun t => t.Every Typed ∧ t.Has d.ty) (v.localAccess d excerpt) := by
  unfold localAccess
  split
  · split
    · exact ⟨typed_of_children trivial (by simp [children]), has_of_ownTy?_eq_none rfl _⟩
    · trivial
  · split
    · exact ⟨typed_of_children trivial (by simp [children]), has_of_ownTy?_eq_none rfl _⟩
    · unfold Site.capturedLocal
      split
      · trivial
      · split
        · exact ⟨typed_of_children trivial (by simp [children]), has_of_ownTy?_eq_some rfl⟩
        · split
          · trivial
          · split
            · refine ⟨typed_of_children trivial ?_, has_of_ownTy?_eq_none rfl _⟩
              simpa [children] using typed_of_children (t := .thisAt _) trivial (by simp [children])
            · trivial

theorem fits_of_ownTy?_eq_none {e : Expr} {t : Tree} (ht : t.Every Typed) (h : t.ownTy? = none) :
    e.Fits t :=
  ⟨ht, fun ty _ => has_of_ownTy?_eq_none h ty⟩

theorem simpleName_typed {note : Note} {qualifier : Option Expr} {name : String} {decl : Decl}
    (h : (Expr.name note qualifier name decl).Agrees) :
    Yields (Expr.name note qualifier name decl).Fits (v.simpleName note name decl) := by
  cases decl with
  | localVar d =>
      refine (localAccess_typed d note.excerpt).imp fun t ht => ⟨ht.1, ?_⟩
      intro ty hty
      rw [h ty hty]
      exact ht.2
  | field d =>
      refine (fieldAccess_typed d note.excerpt ?_).imp fun t ht =>
        fits_of_ownTy?_eq_none ht.1 ht.2
      intro t ht
      cases ht
  | method m => trivial
  | type ty => exact fits_of_ownTy?_eq_none (typed_of_children trivial (by simp [children])) rfl
  | unresolved =>
      unfold simpleName
      dsimp only
      split
      · exact fits_of_ownTy?_eq_none (typed_of_children trivial (by simp [children])) rfl
      · trivial

theorem qualifiedName_typed {note : Note} {q : Expr} {name : String} {decl : Decl}
    {object : Except Fault Tree} (onType : Bool) (h : (Expr.name note (some q) name decl).Agrees)
    (hobject : Yields (Every Typed) object) :
    Yields (Expr.name note (some q) name decl).Fits
      (v.qualifiedName note name onType object decl) := by
  cases decl with
  | field d =>
      have hfield {receiver : Option Tree} (hreceiver : ∀ t ∈ receiver, t.Every Typed) :
          Yields (Expr.name note (some q) name (.field d)).Fits
            (v.fieldAccess d receiver note.excerpt) :=
        (fieldAccess_typed d note.excerpt hreceiver).imp fun t ht =>
          fits_of_ownTy?_eq_none ht.1 ht.2
      unfold qualifiedName
      dsimp only
      split
      · exact hfield (by simp)
      · exact hobject.bind fun t ht => hfield (by simpa using ht)
  | unresolved =>
      unfold qualifiedName
      dsimp only
      split
      · apply hobject.bind
        intro t ht
        exact fits_of_ownTy?_eq_none (typed_of_children trivial (by simpa [children] using ht)) rfl
      · trivial
  | localVar d => exact simpleName_typed h
  | method m => trivial
  | type ty => exact simpleName_typed (v := v) h

/-- A combined chain has the type that the operation gives for the types of its operands. -/
theorem combine_typed {start : Span} {op : BinaryOp} {left right : Operand} {e : Expr}
    (hleft : left.Typed) (hright : right.Typed) :
    Yields (fun x => x.Typed ∧ op.typeOf? left.ty right.ty = some x.ty)
      (v.combine start op left right e) := by
  obtain ⟨hl, hr⟩ := op.converts_convert left right
  have htys := op.convert_ty left right
  unfold combine
  dsimp only
  split
  next ty hty =>
    have hleft' := hleft.converts hl
    have hright' := hright.converts hr
    have hsettled := op.settled_convert hty
    refine ⟨⟨typed_of_children ⟨_, _, hleft'.2, hright'.2, hsettled, hty⟩ ?_,
      has_of_ownTy?_eq_some rfl⟩, ?_⟩
    · simpa [children] using ⟨hleft'.1, hright'.1⟩
    · rw [BinaryOp.typeOf?, ← htys.1, ← htys.2]
      exact hty
  · trivial

theorem isNumeric_of_unaryAccepts {op : UnaryOp} {kind : Kind} (hop : op ≠ .not)
    (h : unaryAccepts op kind) : kind.isNumeric := by
  cases op with
  | not => exact absurd rfl hop
  | bitNot =>
      cases kind with
      | boolean => cases h
      | _ => rfl
  | _ => exact h

/-- The type noted on a unary operation is that of its converted operand. -/
theorem unaryOperand_ty {note : Note} {op : UnaryOp} {operand : Expr} {x : Operand} {ty : Ty}
    {kind : Kind} (h : (Expr.unary note op operand).Agrees) (hty : operand.ty? = some x.ty)
    (hprim : (unaryOperand op x).ty = .prim kind) (haccepts : unaryAccepts op kind)
    (hnoted : (Expr.unary note op operand).ty? = some ty) : (unaryOperand op x).ty = ty := by
  have hagrees := h ty hnoted
  by_cases hop : op = .not
  · subst hop
    have hboolean : kind = .boolean := by simpa [unaryAccepts] using haccepts
    rw [hagrees, Ty.boolean, ← hboolean]
    exact hprim
  · have hmap : x.ty.kind?.map (fun kind => Ty.prim kind.promoted) = some ty := by
      cases op with
      | not => exact absurd rfl hop
      | _ => simpa [hty] using hagrees
    have hpromote : unaryOperand op x = x.promote := by
      cases op with
      | not => exact absurd rfl hop
      | _ => rfl
    obtain ⟨noted, hkind, rfl⟩ := Option.map_eq_some_iff.1 hmap
    have hnumeric := isNumeric_of_unaryAccepts hop haccepts
    rw [hpromote] at hprim ⊢
    exact Operand.promote_ty_of_kind? hkind (by simpa [hprim, Ty.prim?] using hnumeric)

/-- A unary operation works on an operand that is promoted already. -/
theorem promoted_unaryOperand {op : UnaryOp} {x : Operand} {kind : Kind}
    (hkind : (unaryOperand op x).ty = .prim kind) (haccepts : unaryAccepts op kind) :
    kind.promoted = kind := by
  cases op with
  | not =>
      have hboolean : kind = .boolean := by simpa [unaryAccepts] using haccepts
      rw [hboolean]
      rfl
  | _ => exact Operand.promoted_of_promote_ty hkind (isNumeric_of_unaryAccepts (by simp) haccepts)

theorem applyUnary_typed {note : Note} {op : UnaryOp} {operand : Expr} {x : Operand}
    (h : (Expr.unary note op operand).Agrees) (hx : x.Typed) (hty : operand.ty? = some x.ty) :
    Yields (Expr.unary note op operand).Fits (v.applyUnary note op x) := by
  have hoperand : (unaryOperand op x).Typed := hx.converts (converts_unaryOperand op x)
  unfold applyUnary
  dsimp only
  split
  next hany =>
    obtain ⟨kind, hkind, haccepts⟩ := (Option.any_eq_true _ _).1 hany
    have hprim := Ty.prim?_eq_some.1 hkind
    have hpromoted := promoted_unaryOperand hprim haccepts
    have htyped : (Tree.unary op (unaryOperand op x).tree (unaryOperand op x).ty).Typed :=
      ⟨hoperand.2, kind, hprim, haccepts, hpromoted⟩
    refine ⟨typed_of_children htyped ?_, fun ty hnoted => ?_⟩
    · simpa [children] using hoperand.1
    · rw [← unaryOperand_ty h hty hprim haccepts hnoted]
      exact has_of_ownTy?_eq_some rfl
  · trivial

theorem condition_typed {e : Expr} {x : Operand} (hx : x.Typed) :
    Yields (fun t => t.Every Typed ∧ t.Has .boolean) (v.condition e x) := by
  have hunwrap := hx.converts Operand.Converts.refl.unwrap
  unfold condition
  dsimp only
  split
  next hty => exact ⟨hunwrap.1, hty ▸ hunwrap.2⟩
  · trivial

theorem intValue_typed {e : Expr} {x : Operand} (hx : x.Typed) :
    Yields (fun t => t.Every Typed ∧ t.Has .int) (v.intValue e x) := by
  have hpromote := hx.converts Operand.Converts.refl.promote
  unfold intValue
  dsimp only
  split
  next hty => exact ⟨hpromote.1, hty ▸ hpromote.2⟩
  · trivial

theorem result?_step (op : StepOp) {kind : Kind} (h : kind.isNumeric) :
    op.binary.result? (.prim (kind.join .int)) (.prim (kind.join .int)) =
      some (.prim (kind.join .int)) := by
  cases kind with
  | boolean => cases h
  | _ => cases op <;> rfl

theorem settled_step (op : StepOp) (kind : Kind) :
    op.binary.Settled (.prim (kind.join .int)) (.prim (kind.join .int)) := by
  intro l r hpair
  obtain ⟨hl, hr, -⟩ := BinaryOp.numericPair?_eq_some hpair
  rw [← Ty.prim.inj hl, ← Ty.prim.inj hr]
  exact ⟨Kind.promoted_join _ _, Kind.promoted_join _ _, fun _ => rfl⟩

theorem stepTree_typed (op : StepOp) (form : StepForm) {kind : Kind} {ty : Ty} {place : Tree}
    (hkind : ty.kind?.filter Kind.isNumeric = some kind) (hplace : (Operand.mk place ty).Typed) :
    (stepTree op form kind ty place).Every Typed ∧
      (stepTree op form kind ty place).ownTy? = none := by
  obtain ⟨hkind, hnumeric⟩ := Option.filter_eq_some_iff.1 hkind
  obtain ⟨read, one, value, hread, hreadTy, hone, honeTy, hvalue, heq⟩ :=
    stepTree_eq op form place hkind
  rw [heq]
  have hread' := hplace.converts hread
  have hone' : one.Typed := by
    refine Operand.Typed.converts ⟨?_, has_of_ownTy?_eq_some rfl⟩ hone
    exact typed_of_children trivial (by simp [children])
  have hbinary : (Operand.mk (.binary op.binary read.tree one.tree (.prim (kind.join .int)))
      (.prim (kind.join .int))).Typed := by
    refine ⟨typed_of_children ⟨_, _, hread'.2, hone'.2, ?_⟩ ?_, has_of_ownTy?_eq_some rfl⟩
    · rw [hreadTy, honeTy]
      exact ⟨settled_step op kind, result?_step op hnumeric⟩
    · simpa [children] using ⟨hread'.1, hone'.1⟩
  refine ⟨typed_of_children trivial ?_, rfl⟩
  simpa [children] using ⟨hplace.1, (hbinary.converts hvalue).1⟩

/-- What arguments of typed operands compile to, an array of those collected included. -/
theorem arguments_typed (h : Hierarchy) (m : MethodDecl) {args : List Operand} (excerpt : Excerpt)
    (hargs : ∀ x ∈ args, x.Typed) :
    Yields (fun trees => ∀ t ∈ trees, t.Every Typed) (h.arguments m args excerpt) := by
  refine h.arguments_meets m (fun _ _ => trivial)
    (fun x hx y hxy => ((hargs x hx).converts hxy).1) ?_
  intro ty elements hty helements
  exact typed_of_children ⟨hty, by simp⟩ (by simpa [children] using helements)

/-! ### Whole expressions -/

end View

namespace Role

variable {role : Role} {e : Expr} {t : Tree}

theorem Reads.fits (hrole : role.Reads) (h : e.Fits t) : role.Fits e t := by
  cases hrole with
  | value => exact h
  | receiver => exact h

theorem Permits.fits (hrole : role.Permits t) (h : e.Fits t) : role.Fits e t := by
  cases hrole with
  | reads hreads => exact hreads.fits h
  | target _ => exact h

/-- The tree fits the role, provided the notes on the expression agree with its nodes. -/
def Honours (role : Role) (e : Expr) (t : Tree) : Prop := e.Every Expr.Agrees → role.Fits e t

theorem Honours.operand {x : Operand} (hx : e.Gives Honours x) (he : e.Every Expr.Agrees) :
    x.Typed :=
  ⟨(hx.tree he).1, (hx.tree he).2 x.ty hx.ty⟩

theorem Honours.stored {ty : Ty} (ht : e.Stores Honours ty t) (he : e.Every Expr.Agrees) :
    t.Every Tree.Typed := by
  cases ht with
  | braces ht => exact (ht he).1
  | value hx => exact ((Honours.operand hx he).converts (.assignTo .refl ty)).1

/-- A chain has the type that the fold over its operands arrives at. -/
theorem Honours.chains {v : View} {start : Span} {left whole : Operand} {rest : List Expr}
    {ops : List BinaryOp} (h : v.Chains Honours start left rest ops whole)
    (hrest : ∀ e ∈ rest, e.Every Expr.Agrees) (hleft : left.Typed) :
    whole.Typed ∧ Expr.foldTy? left.ty rest ops = some whole.ty := by
  induction h with
  | nil => exact ⟨hleft, by simp [Expr.foldTy?]⟩
  | cons hright hnext _ ih =>
      obtain ⟨he, hrest⟩ := List.forall_mem_cons.1 hrest
      obtain ⟨htyped, hty⟩ := (View.combine_typed hleft (Honours.operand hright he)).of_ok hnext
      obtain ⟨hwhole, hfold⟩ := ih hrest htyped
      refine ⟨hwhole, ?_⟩
      rw [Expr.foldTy?, hright.ty, Option.bind_some, hty, Option.bind_some, hfold]

theorem Honours.arguments {v : View} {m : MethodDecl} {excerpt : Excerpt} {args : List Expr}
    {operands : List Operand} {trees : List Tree}
    (hargs : args.Forall₂ (Expr.Gives Honours) operands)
    (hagree : ∀ e ∈ args, e.Every Expr.Agrees)
    (htrees : v.hierarchy.arguments m operands excerpt = .ok trees) :
    ∀ t ∈ trees, t.Every Tree.Typed := by
  have htyped : ∀ x ∈ operands, x.Typed :=
    forall_mem_right hargs fun e he x hx => Honours.operand hx (hagree e he)
  exact (View.arguments_typed v.hierarchy m excerpt htyped).of_ok htrees

end Role

namespace View

open Breakpoint.Tree

variable {v : View}

/-- Each form of expression compiles to a typed node if its notes agree with its parts. -/
theorem rules_honours (v : View) : v.Rules Role.Honours where
  literal hrole he := by
    refine hrole.fits ⟨typed_of_children trivial (by simp [children]), fun ty hty => ?_⟩
    rw [(Expr.every_iff.1 he).1 ty hty]
    exact has_of_ownTy?_eq_some rfl
  simpleName hrole ht he := hrole.fits ((simpleName_typed (Expr.every_iff.1 he).1).of_ok ht)
  length hrole _ hq _ he := by
    have hq := hq ((Expr.every_iff.1 he).2 _ (by simp [Expr.children]))
    refine hrole.fits (fits_of_ownTy?_eq_none (typed_of_children trivial ?_) rfl)
    simpa [children] using hq.1
  qualifiedName hrole _ hq ht he := by
    obtain ⟨hown, hchildren⟩ := Expr.every_iff.1 he
    have hobject := hq.imp fun _ h => (h (hchildren _ (by simp [Expr.children]))).1
    exact hrole.fits ((qualifiedName_typed _ hown hobject).of_ok ht)
  thisRef hrole _ _ :=
    hrole.fits (fits_of_ownTy?_eq_none (typed_of_children trivial (by simp [children])) rfl)
  superRef _ _ := fits_of_ownTy?_eq_none (typed_of_children trivial (by simp [children])) rfl
  classLiteral hrole _ :=
    hrole.fits (fits_of_ownTy?_eq_none (typed_of_children trivial (by simp [children])) rfl)
  paren {role _ _ _} hrole hinner he := by
    obtain ⟨hown, hchildren⟩ := Expr.every_iff.1 he
    have hfits := hinner (hchildren _ (by simp [Expr.children]))
    cases role with
    | initializer ty => exact absurd rfl (hrole ty)
    | _ => exact ⟨hfits.1, fun ty hty => hfits.2 ty (hown ty hty)⟩
  chain hrole hfirst hrest he := by
    obtain ⟨hown, hchildren⟩ := Expr.every_iff.1 he
    obtain ⟨hagrees, hagree⟩ := List.forall_mem_cons.1 hchildren
    obtain ⟨hwhole, hfold⟩ := Role.Honours.chains hrest hagree (Role.Honours.operand hfirst hagrees)
    refine hrole.fits ⟨hwhole.1, fun ty hty => ?_⟩
    -- The noted type is the one that the fold over the chain arrives at.
    have hnoted := hown ty hty
    dsimp only at hnoted
    rw [hfirst.ty, Option.bind_some, hfold] at hnoted
    cases hnoted
    exact hwhole.2
  unary hrole hx ht he := by
    obtain ⟨hown, hchildren⟩ := Expr.every_iff.1 he
    have htyped := Role.Honours.operand hx (hchildren _ (by simp [Expr.children]))
    exact hrole.fits ((applyUnary_typed hown htyped hx.ty).of_ok ht)
  step hrole hty hkind hplace he := by
    have hfits := hplace ((Expr.every_iff.1 he).2 _ (by simp [Expr.children]))
    obtain ⟨htyped, hown⟩ := stepTree_typed _ _ hkind ⟨hfits.1, hfits.2 _ hty⟩
    exact hrole.fits (fits_of_ownTy?_eq_none htyped hown)
  assign hrole _ hplace hx he := by
    have hchildren := (Expr.every_iff.1 he).2
    simp only [Expr.children, List.forall_mem_cons] at hchildren
    obtain ⟨htarget, hvalue, -⟩ := hchildren
    have hstored (ty : Ty) := (Role.Honours.operand hx hvalue).converts (.assignTo .refl ty)
    refine hrole.fits (fits_of_ownTy?_eq_none (typed_of_children trivial ?_) rfl)
    simpa [children] using ⟨(hplace htarget).1, (hstored _).1⟩
  conditional hrole _ hc htest hx hy he := by
    have hchildren := (Expr.every_iff.1 he).2
    simp only [Expr.children, List.forall_mem_cons] at hchildren
    obtain ⟨hcondition, hthen, helse, -⟩ := hchildren
    have htest := (condition_typed (Role.Honours.operand hc hcondition)).of_ok htest
    have hthen (ty : Ty) := (Role.Honours.operand hx hthen).converts (.assignTo .refl ty)
    have helse (ty : Ty) := (Role.Honours.operand hy helse).converts (.assignTo .refl ty)
    refine hrole.fits (fits_of_ownTy?_eq_none (typed_of_children htest.2 ?_) rfl)
    simpa [children] using ⟨htest.1, (hthen _).1, (helse _).1⟩
  instanceOf hrole hx hprim he := by
    obtain ⟨hown, hchildren⟩ := Expr.every_iff.1 he
    have htyped := Role.Honours.operand hx (hchildren _ (by simp [Expr.children]))
    refine hrole.fits ⟨typed_of_children ?_ (by simpa [children] using htyped.1), ?_⟩
    · intro source hsource
      rwa [htyped.2 source hsource]
    · intro ty hty
      rw [hown ty hty]
      exact has_of_ownTy?_eq_some rfl
  cast {_ _ target _ _} hrole hx he := by
    obtain ⟨hown, hchildren⟩ := Expr.every_iff.1 he
    have htyped := Role.Honours.operand hx (hchildren _ (by simp [Expr.children]))
    have hconverted := htyped.converts (.convertTo .refl target)
    have hhas := hconverted.2
    rw [Operand.convertTo_ty] at hhas
    refine hrole.fits ⟨hconverted.1, fun ty hty => ?_⟩
    rw [hown ty hty]
    exact hhas
  index hrole ha harray hx hposition he := by
    have hchildren := (Expr.every_iff.1 he).2
    simp only [Expr.children, List.forall_mem_cons] at hchildren
    obtain ⟨hagree, hindex, -⟩ := hchildren
    have hatyped := Role.Honours.operand ha hagree
    have hposition := (intValue_typed (Role.Honours.operand hx hindex)).of_ok hposition
    refine hrole.fits (fits_of_ownTy?_eq_none (typed_of_children ⟨fun s hs => ?_, hposition.2⟩ ?_)
      rfl)
    · rwa [hatyped.2 s hs]
    · simpa [children] using ⟨hatyped.1, hposition.1⟩
  call hrole hreceiver hobject hargs htrees he := by
    obtain ⟨hown, hchildren⟩ := Expr.every_iff.1 he
    have hfront := hreceiver.forall_mem fun q hq t ht =>
      (ht (hchildren q (List.mem_append_left _ (Option.mem_toList.2 hq)))).1
    have hobject := (memberOwner_typed _ _ _ hfront).of_ok hobject
    have htrees := Role.Honours.arguments hargs
      (fun x hx => hchildren x (by simp [Expr.children, hx])) htrees
    refine hrole.fits ⟨typed_of_children trivial ?_, fun ty hty => ?_⟩
    · simpa [children] using ⟨hobject, htrees⟩
    · rw [hown ty hty]
      exact has_of_ownTy?_eq_some rfl
  newInstance hrole henclosing hargs htrees he := by
    obtain ⟨hown, hchildren⟩ := Expr.every_iff.1 he
    have hfront := henclosing.forall_mem
      (fun q hq t ht => (ht (hchildren q (List.mem_append_left _ (Option.mem_toList.2 hq)))).1)
      fun c t ht => ((thisFor_typed c _).of_ok ht).1
    have htrees := Role.Honours.arguments hargs
      (fun x hx => hchildren x (by simp [Expr.children, hx])) htrees
    refine hrole.fits ⟨typed_of_children trivial fun t ht => ?_, fun ty hty => ?_⟩
    · exact (List.mem_append.1 ht).elim (hfront t) (htrees t)
    · rw [hown ty hty]
      exact has_of_ownTy?_eq_some rfl
  filledArray hrole hty hinit he := by
    have hfits := hinit ((Expr.every_iff.1 he).2 _ (by simp [Expr.children]))
    obtain ⟨hnote, -⟩ := Yields.of_ok (createdTy_meets fun _ _ => trivial) hty
    refine hrole.fits ⟨hfits.1, fun noted hnoted => ?_⟩
    cases hnote.symm.trans hnoted
    exact hfits.2
  emptyArray hrole hty hx hlength he := by
    have hdim := (Expr.every_iff.1 he).2 _ (List.mem_append_left _ List.mem_cons_self)
    obtain ⟨hnote, harray, -⟩ := Yields.of_ok (createdTy_meets fun _ _ => trivial) hty
    have hlength := (intValue_typed (Role.Honours.operand hx hdim)).of_ok hlength
    refine hrole.fits ⟨typed_of_children ⟨harray, by simpa using hlength.2⟩ ?_, ?_⟩
    · simpa [children] using hlength.1
    · intro noted hnoted
      cases hnote.symm.trans hnoted
      exact has_of_ownTy?_eq_some rfl
  braces {_ _ _ ty _ trees} hrole hcomponent htrees he := by
    have hchildren := (Expr.every_iff.1 he).2
    have helements := forall_mem_right htrees fun e he t ht =>
      Role.Honours.stored ht (hchildren e he)
    have htyped : (Tree.newArray ty none (some trees)).Every Typed :=
      typed_of_children ⟨Ty.isArray_of_component? hcomponent, by simp⟩
        (by simpa [children] using helements)
    have hhas : (Tree.newArray ty none (some trees)).Has ty := has_of_ownTy?_eq_some rfl
    obtain rfl | ⟨hreads, hnote⟩ := hrole
    · exact ⟨htyped, hhas⟩
    · refine hreads.fits ⟨htyped, fun noted hnoted => ?_⟩
      cases hnote.symm.trans hnoted
      exact hhas

/-- An expression whose notes agree with its nodes compiles to a tree of typed nodes. -/
theorem lower_typed (role : Role) {e : Expr} (he : e.Every Expr.Agrees) :
    Yields (role.Fits e) (v.lower role e) :=
  (v.rules_honours.yields role e).imp fun _ ht => ht he

theorem lowerCondition_typed {e : Expr} (he : e.Every Expr.Agrees) :
    Yields (fun t => t.Every Typed ∧ t.Has .boolean) (v.lowerCondition e) :=
  (v.rules_honours.operand e).bind fun _ hx => condition_typed (Role.Honours.operand hx he)

theorem lowerInitial_typed {e : Expr} (ty : Ty) (he : e.Every Expr.Agrees) :
    Yields (Every Typed) (v.lowerInitial ty e) :=
  (v.rules_honours.initial ty e).imp fun _ ht => Role.Honours.stored ht he

end View

theorem Tree.OfStatement.typed {t : Tree} (h : t.OfStatement fun s => s.Has .boolean) :
    t.Typed := by
  cases t with
  | forLoop label init condition update body =>
      cases condition with
      | none => trivial
      | some condition => exact h
  | ifElse | whileLoop | doLoop => exact h
  | conditional | instanceOf | cast | box | unbox | unary | binary | element | newArray => cases h
  | _ => trivial

theorem Site.admitted_of_agrees {exprs : List Expr} (site : Site)
    (h : ∀ e ∈ exprs, e.Every Expr.Agrees) :
    site.Admitted Tree.Typed (fun t => t.Has .boolean) exprs := by
  intro e he v _
  refine ⟨?_, View.lowerCondition_typed (h e he), fun ty => View.lowerInitial_typed ty (h e he)⟩
  exact (View.lower_typed .value (h e he)).imp fun _ => And.left

/-- Whatever the classes, the position, the options, the visible locals and the jump targets are: if
the notes of an expression, of a statement or of a statement list agree with its own nodes and it
compiles, then every node of the tree finds operands of the types it was built for. -/
theorem compiled_nodes_typed (c : Context) :
    (∀ e : Expr, e.Every Expr.Agrees →
      ∀ t, c.view.lower .value e = .ok t → ∀ n ∈ t.nodes, n.Typed) ∧
    (∀ (placement : Placement) (s : Stmt), (∀ e ∈ s.exprs, e.Every Expr.Agrees) →
      ∀ t c', (lowerStmt placement s).run.run c = (.ok t, c') → ∀ n ∈ t.nodes, n.Typed) ∧
    (∀ stmts : List Stmt, (∀ e ∈ Stmt.exprsOfList stmts, e.Every Expr.Agrees) →
      ∀ t c', (lowerFragment stmts).run.run c = (.ok t, c') → ∀ n ∈ t.nodes, n.Typed) := by
  refine ⟨?_, ?_, ?_⟩
  · intro e he t ht
    exact ((View.lower_typed .value he).of_ok ht).1
  · intro placement s hs t c' hrun
    have hstmt := lowerStmt_every (fun _ => Tree.OfStatement.typed) placement s
      (c.toSite.admitted_of_agrees hs)
    exact ((hstmt c rfl).of_ok hrun).1
  · intro stmts hstmts t c' hrun
    have hfragment := lowerFragment_every (fun _ => Tree.OfStatement.typed) stmts
      (c.toSite.admitted_of_agrees hstmts)
    exact ((hfragment c rfl).of_ok hrun).1

/-- A boxed variable that starts as the successor of a boxed local of the suspended method. -/
def Stmt.boxedSuccessor : Stmt :=
  .decl {} [⟨{ name := "n", ty := .boxed .int }, some (.chain { ty? := some .int }
    [.name { ty? := some (.boxed .int) } none "boxed"
      (.localVar { name := "boxed", ty := .boxed .int, origin := .method ⟨1⟩ }),
      .literal { ty? := some .int } (.int 1)] [.add]), {}⟩]

/-- The local is unboxed for the addition, and the sum is boxed again. -/
theorem compiled_nodes_typed_boxedSuccessor :
    (∀ e ∈ Stmt.exprsOfList [.boxedSuccessor], e.Every Expr.Agrees) ∧
    ∃ t c', (lowerFragment [.boxedSuccessor]).run.run
      (Context.start ⟨.empty, ⟨[⟨1⟩], .onInstance⟩, {}⟩) = (.ok t, c') ∧
        ∀ n ∈ t.nodes, n.Typed := by
  have hagrees : ∀ e ∈ Stmt.exprsOfList [.boxedSuccessor], e.Every Expr.Agrees := by
    intro e he
    cases List.mem_singleton.1 he
    refine Expr.every_iff.2 ⟨?_, ?_⟩
    · intro ty hty
      cases hty
      rfl
    · intro e he
      simp only [Expr.children, List.mem_cons, List.not_mem_nil, or_false] at he
      rcases he with rfl | rfl <;>
        exact Expr.every_iff.2 ⟨fun ty hty => (Option.some.inj hty).symm, by simp [Expr.children]⟩
  refine ⟨hagrees, _, _, rfl, ?_⟩
  exact (compiled_nodes_typed (Context.start ⟨.empty, ⟨[⟨1⟩], .onInstance⟩, {}⟩)).2.2 _ hagrees _ _
    rfl

end Breakpoint
