import Breakpoint.Proofs.OperandRules
import Breakpoint.Proofs.Typing

/-!
Conversions done twice. What comes out of a conversion is left alone by the same conversion: it has
reached the type that was asked for, where there is nothing more to do, or there was no rule for it.
The conversion for a place and the conversion of a cast go the same way wherever the first of them
reaches the type of the place.
-/

namespace Breakpoint

namespace Kind

theorem ofWrapper?_wrapper (kind : Kind) : ofWrapper? kind.wrapper = some kind := by
  cases kind <;> decide

/-- Kinds that were brought together are not brought any further. -/
theorem join_join (l r : Kind) : (l.join r).join (l.join r) = l.join r := by
  cases l <;> cases r <;> rfl

theorem isNumeric_join (l r : Kind) : (l.join r).isNumeric := by
  cases l <;> cases r <;> rfl

theorem promoted_promoted (kind : Kind) : kind.promoted.promoted = kind.promoted := by
  cases kind <;> rfl

theorem isNumeric_promoted {kind : Kind} (h : kind.isNumeric) : kind.promoted.isNumeric := by
  cases kind with
  | boolean => cases h
  | _ => rfl

end Kind

namespace Ty

variable {t : Ty}

theorem unboxed?_boxed (kind : Kind) : (boxed kind).unboxed? = some kind := kind.ofWrapper?_wrapper

theorem isNumeric_iff : t.isNumeric ↔ ∃ kind, t.kind? = some kind ∧ kind.isNumeric :=
  Option.any_eq_true ..

theorem unboxed?_of_not_isClass (h : t.isClass = false) : t.unboxed? = none := by
  cases t with
  | ofClass c => cases h
  | _ => rfl

theorem exists_kind? (h : t.isPrim ∨ t.unboxed?.isSome) : ∃ kind, t.kind? = some kind := by
  rcases h with hprim | hboxed
  · obtain ⟨kind, rfl⟩ := isPrim_iff.1 hprim
    exact ⟨kind, rfl⟩
  · obtain ⟨kind, hkind⟩ := Option.isSome_iff_exists.1 hboxed
    exact ⟨kind, kind?_of_unboxed? hkind⟩

/-- A type that has a kind is primitive or a wrapper. -/
theorem prim_or_boxed_of_kind? {kind : Kind} (h : t.kind? = some kind) :
    t = .prim kind ∨ t = .boxed kind := by
  cases t with
  | prim k =>
      cases h
      exact .inl rfl
  | ofClass c => exact .inr (eq_boxed_of_unboxed? h)
  | _ => cases h

end Ty

namespace Operand

variable {x : Operand} {t : Ty} {kind : Kind}

theorem castTo_of_ty (h : x.ty = t) : x.castTo t = x := if_pos h

theorem assignTo_of_ty (h : x.ty = t) : x.assignTo t = x := if_pos h

theorem convertTo_of_ty (h : x.ty = t) : x.convertTo t = x := if_pos h

theorem asKind_of_prim (h : x.ty = .prim kind) (k : Kind) : x.asKind k = x.castTo (.prim k) := by
  rw [asKind, unwrap_of_isPrim (Ty.isPrim_iff.2 ⟨kind, h⟩)]

theorem asKind_of_boxed (h : x.ty = .boxed kind) (k : Kind) :
    x.asKind k = (x.unboxAs kind).castTo (.prim k) := by
  rw [asKind, unwrap, h, Ty.unboxed?_boxed]

/-- A value is stored in a primitive place as a value of its kind. -/
theorem assignTo_prim (h : x.ty.kind? = some kind) (k : Kind) :
    x.assignTo (.prim k) = x.asKind k := by
  rcases Ty.prim_or_boxed_of_kind? h with hty | hty
  · rw [asKind_of_prim hty]
    unfold assignTo
    split
    next hself => rw [castTo_of_ty hself]
    · simp only [hty]
  · rw [asKind_of_boxed hty]
    simp only [assignTo, hty, Ty.unboxed?_boxed]
    rfl

/-- A cast of a value to a primitive type makes a value of its kind. -/
theorem convertTo_prim (h : x.ty.kind? = some kind) (k : Kind) :
    x.convertTo (.prim k) = x.asKind k := by
  rcases Ty.prim_or_boxed_of_kind? h with hty | hty
  · rw [asKind_of_prim hty]
    unfold convertTo
    split
    next hself => rw [castTo_of_ty hself]
    · simp only [hty]
  · rw [asKind_of_boxed hty]
    simp only [convertTo, hty, Ty.unboxed?_boxed]
    rfl

/-- A primitive value is brought to the kind of the wrapper that it is stored in. -/
theorem assignTo_boxed (h : x.ty = .prim kind) (k : Kind) :
    x.assignTo (.boxed k) = (x.castTo (.prim k)).boxAs k := by
  simp only [assignTo, h, Ty.unboxed?_boxed]
  rfl

/-- A primitive value is brought to the kind of the wrapper that it is cast to. -/
theorem convertTo_boxed (h : x.ty = .prim kind) (k : Kind) :
    x.convertTo (.boxed k) = (x.castTo (.prim k)).boxAs k := by
  simp only [convertTo, h, Ty.unboxed?_boxed]
  rfl

/-- For a class that is no wrapper a primitive value is boxed as its own kind. -/
theorem assignTo_ofClass (h : x.ty = .prim kind) {c : ClassId} (hc : Kind.ofWrapper? c = none) :
    x.assignTo (.ofClass c) = x.boxAs kind := by
  simp [assignTo, h, Ty.unboxed?, hc, castTo_of_ty h]

/-- What conversion for a place of type `t` can make of an operand: what a cast to `t` makes of it,
the operand itself, or its value in the wrapper of its own kind, if `t` is a class but no
wrapper. -/
inductive Stored (x : Operand) (t : Ty) : Operand → Prop where
  | cast : Stored x t (x.convertTo t)
  | same : Stored x t x
  | box {kind : Kind} {c : ClassId} (ht : t = .ofClass c) (hc : Kind.ofWrapper? c = none) :
      Stored x t (x.boxAs kind)

theorem stored_assignTo (x : Operand) (t : Ty) : x.Stored t (x.assignTo t) := by
  have hkeep {y : Operand} (h : y = x) : x.Stored t y := h ▸ .same
  cases t with
  | prim k =>
      cases hkind : x.ty.kind? with
      | some kind =>
          rw [assignTo_prim hkind, ← convertTo_prim hkind]
          exact .cast
      | none =>
          refine hkeep ?_
          cases hty : x.ty with
          | prim kind =>
              rw [hty] at hkind
              cases hkind
          | ofClass c =>
              rw [hty] at hkind
              have hunboxed : (Ty.ofClass c).unboxed? = none := hkind
              simp [assignTo, hty, hunboxed]
          | _ => simp [assignTo, hty]
  | ofClass c =>
      cases hty : x.ty with
      | prim kind =>
          cases hc : Kind.ofWrapper? c with
          | some k =>
              rw [← Kind.wrapper_of_ofWrapper? hc, ← Ty.boxed, assignTo_boxed hty,
                ← convertTo_boxed hty]
              exact .cast
          | none =>
              rw [assignTo_ofClass hty hc]
              exact .box rfl hc
      | _ =>
          refine hkeep ?_
          simp [assignTo, hty]
  | _ =>
      refine hkeep ?_
      simp [assignTo]

theorem assignTo_assignTo (x : Operand) (t : Ty) : (x.assignTo t).assignTo t = x.assignTo t := by
  generalize hy : x.assignTo t = y
  cases hy ▸ x.stored_assignTo t with
  | cast => exact assignTo_of_ty (x.convertTo_ty t)
  | same => exact hy
  | box ht hc =>
      subst ht
      simp [assignTo, boxAs, Ty.boxed]

/-- Where the conversion for a place reaches the type of the place, it is that of a cast. -/
theorem assignTo_eq_convertTo (h : (x.assignTo t).ty = t) : x.assignTo t = x.convertTo t := by
  generalize hy : x.assignTo t = y at h ⊢
  cases hy ▸ x.stored_assignTo t with
  | cast => rfl
  | same => rw [convertTo_of_ty h]
  | @box kind c ht hc =>
      have hwrapper : kind.wrapper = c := Ty.ofClass.inj (h.trans ht)
      rw [← hwrapper, kind.ofWrapper?_wrapper] at hc
      cases hc

theorem promote_of_kind? (h : x.ty.kind? = some kind) (hnumeric : kind.isNumeric) :
    x.promote = x.asKind kind.promoted := by
  have hx : x.ty.isNumeric := Ty.isNumeric_iff.2 ⟨kind, h, hnumeric⟩
  have hunwrap : x.unwrap.ty.isNumeric := by
    rw [unwrap_ty_of_kind? h]
    exact hnumeric
  calc x.promote
    _ = x.unwrap.promote := by simp only [promote, hx, hunwrap, unwrap_unwrap, if_true]
    _ = x.asKind kind.promoted := promote_unwrap h

theorem promote_of_not_isNumeric (h : ¬x.ty.isNumeric) : x.promote = x := if_neg h

theorem promote_promote (x : Operand) : x.promote.promote = x.promote := by
  by_cases hx : x.ty.isNumeric
  · obtain ⟨kind, hkind, hnumeric⟩ := Ty.isNumeric_iff.1 hx
    have hty := x.asKind_ty kind.promoted
    have hpromoted : (x.asKind kind.promoted).ty.kind? = some kind.promoted := by
      rw [hty]
      rfl
    rw [promote_of_kind? hkind hnumeric,
      promote_of_kind? hpromoted (Kind.isNumeric_promoted hnumeric), Kind.promoted_promoted,
      asKind_of_prim hty, castTo_of_ty hty]
  · rw [promote_of_not_isNumeric hx, promote_of_not_isNumeric hx]

theorem unboxed?_promote (h : x.ty.unboxed? = none) : x.promote.ty.unboxed? = none := by
  by_cases hx : x.ty.isNumeric
  · obtain ⟨kind, hkind, hnumeric⟩ := Ty.isNumeric_iff.1 hx
    rw [promote_of_kind? hkind hnumeric, asKind_ty]
    rfl
  · rwa [promote_of_not_isNumeric hx]

theorem isNull_promote (x : Operand) : x.promote.ty.isNull = x.ty.isNull := by
  by_cases hx : x.ty.isNumeric
  · obtain ⟨kind, hkind, hnumeric⟩ := Ty.isNumeric_iff.1 hx
    rw [promote_of_kind? hkind hnumeric, asKind_ty, Ty.isNull_of_kind? hkind]
    rfl
  · rw [promote_of_not_isNumeric hx]

end Operand

/-! ### Two operands -/

namespace BinaryOp

variable {op : BinaryOp} {l r : Operand}

/-- What conversion does once the operands are unwrapped. -/
def bringTogether (op : BinaryOp) (l r : Operand) : Operand × Operand :=
  if op.family = .shift then (l.promote, r.promote)
  else if op.promotesOperands then
    match numericPair? l.ty r.ty with
    | some (a, b) => (l.castTo (.prim (a.join b)), r.castTo (.prim (a.join b)))
    | none => (l, r)
  else (l, r)

theorem convert_eq (op : BinaryOp) (l r : Operand) : op.convert l r =
    if op.unwraps l.ty r.ty then op.bringTogether l.unwrap r.unwrap else op.bringTogether l r := by
  unfold convert
  by_cases hunwraps : op.unwraps l.ty r.ty
  · rw [if_pos hunwraps, if_pos hunwraps]
    rfl
  · rw [if_neg hunwraps, if_neg hunwraps]
    rfl

/-- Bringing operands together promotes those of a shift, casts two numbers to one kind, or does
nothing. -/
theorem bringTogether_cases (op : BinaryOp) (l r : Operand) :
    (op.family = .shift ∧ op.bringTogether l r = (l.promote, r.promote)) ∨
    (op.family ≠ .shift ∧ op.promotesOperands ∧ ∃ kind, kind.isNumeric ∧ kind.join kind = kind ∧
      op.bringTogether l r = (l.castTo (.prim kind), r.castTo (.prim kind))) ∨
    op.bringTogether l r = (l, r) := by
  unfold bringTogether
  by_cases hshift : op.family = .shift
  · exact .inl ⟨hshift, if_pos hshift⟩
  · rw [if_neg hshift]
    split
    next hpromotes =>
      split
      next a b _ =>
        exact .inr (.inl ⟨hshift, hpromotes, _, a.isNumeric_join b, a.join_join b, rfl⟩)
      · exact .inr (.inr rfl)
    · exact .inr (.inr rfl)

theorem bringTogether_bringTogether (op : BinaryOp) (l r : Operand) :
    op.bringTogether (op.bringTogether l r).1 (op.bringTogether l r).2 = op.bringTogether l r := by
  rcases op.bringTogether_cases l r with
    ⟨hshift, heq⟩ | ⟨hshift, hpromotes, kind, hnumeric, hjoin, heq⟩ | heq
  · rw [heq, bringTogether, if_pos hshift, Operand.promote_promote, Operand.promote_promote]
  · have hl := l.castTo_ty (.prim kind)
    have hr := r.castTo_ty (.prim kind)
    have hpair : numericPair? (.prim kind) (.prim kind) = some (kind, kind) := by
      simp [numericPair?, hnumeric]
    rw [heq, bringTogether, if_neg hshift, if_pos hpromotes, hl, hr, hpair]
    dsimp only
    rw [hjoin, Operand.castTo_of_ty hl, Operand.castTo_of_ty hr]
  · rw [heq, heq]

theorem unboxed?_bringTogether (hl : l.ty.unboxed? = none) (hr : r.ty.unboxed? = none) :
    (op.bringTogether l r).1.ty.unboxed? = none ∧ (op.bringTogether l r).2.ty.unboxed? = none := by
  rcases op.bringTogether_cases l r with ⟨-, heq⟩ | ⟨-, -, kind, -, -, heq⟩ | heq
  · rw [heq]
    exact ⟨Operand.unboxed?_promote hl, Operand.unboxed?_promote hr⟩
  · rw [heq]
    simp only [Operand.castTo_ty]
    exact ⟨rfl, rfl⟩
  · rw [heq]
    exact ⟨hl, hr⟩

/-- The operands of a shift are unwrapped unless one of them is null or none is an object. -/
theorem unwraps_of_shift (hshift : op.family = .shift) (left right : Ty) :
    op.unwraps left right =
      (!(left.isNull || right.isNull) && (left.isClass || right.isClass)) := by
  have hconcat : op.concatenates left right = false := by
    rw [← Bool.not_eq_true, concatenates_iff]
    rintro ⟨rfl, -⟩
    cases hshift
  unfold unwraps
  rw [hconcat, hshift]
  cases left.isNull || right.isNull <;> rfl

/-- Where converted operands are still to be unwrapped, they are no wrappers. -/
theorem unboxed?_convert (hunwraps : op.unwraps (op.convert l r).1.ty (op.convert l r).2.ty) :
    (op.convert l r).1.ty.unboxed? = none ∧ (op.convert l r).2.ty.unboxed? = none := by
  rw [convert_eq] at hunwraps ⊢
  split at hunwraps
  next hfirst =>
    rw [if_pos hfirst]
    exact unboxed?_bringTogether l.unboxed?_unwrap r.unboxed?_unwrap
  next hfirst =>
    rw [if_neg hfirst]
    rcases op.bringTogether_cases l r with ⟨hshift, heq⟩ | ⟨-, -, kind, -, -, heq⟩ | heq
    · -- Null stays null, so there was no object that could have been unwrapped.
      rw [heq, unwraps_of_shift hshift, Operand.isNull_promote, Operand.isNull_promote] at hunwraps
      rw [unwraps_of_shift hshift, (Bool.and_eq_true_iff.1 hunwraps).1] at hfirst
      have hobjects : l.ty.isClass = false ∧ r.ty.isClass = false := by simpa using hfirst
      rw [heq]
      exact ⟨Operand.unboxed?_promote (Ty.unboxed?_of_not_isClass hobjects.1),
        Operand.unboxed?_promote (Ty.unboxed?_of_not_isClass hobjects.2)⟩
    · rw [heq]
      simp only [Operand.castTo_ty]
      exact ⟨rfl, rfl⟩
    · rw [heq] at hunwraps
      exact absurd hunwraps hfirst

theorem convert_convert (op : BinaryOp) (l r : Operand) :
    op.convert (op.convert l r).1 (op.convert l r).2 = op.convert l r := by
  have hkeep : op.convert (op.convert l r).1 (op.convert l r).2 =
      op.bringTogether (op.convert l r).1 (op.convert l r).2 := by
    rw [convert_eq _ (op.convert l r).1]
    split
    next hunwraps =>
      obtain ⟨hl, hr⟩ := unboxed?_convert hunwraps
      rw [Operand.unwrap_of_unboxed? hl, Operand.unwrap_of_unboxed? hr]
    · rfl
  rw [hkeep, convert_eq]
  split
  · exact bringTogether_bringTogether op _ _
  · exact bringTogether_bringTogether op _ _

end BinaryOp

/-- Conversions are idempotent and agree with each other. Each of them gives the same for an operand
or a pair of operands as for what it gives for them. A cast always has the type that it is to; the
conversion for a place makes the same of an operand as a cast wherever it reaches the type of the
place; and it does so for operands of that type, from primitive types and wrappers to primitive
types, and from primitive types to wrappers. -/
theorem conversions_settle (x l r : Operand) (t : Ty) (op : BinaryOp) :
    ((x.assignTo t).assignTo t = x.assignTo t ∧
      (x.convertTo t).convertTo t = x.convertTo t ∧
      x.promote.promote = x.promote ∧
      x.unwrap.unwrap = x.unwrap ∧
      op.convert (op.convert l r).1 (op.convert l r).2 = op.convert l r) ∧
    (x.convertTo t).ty = t ∧
    ((x.assignTo t).ty = t → x.assignTo t = x.convertTo t) ∧
    (x.ty = t ∨ t.isPrim ∧ (x.ty.isPrim ∨ x.ty.unboxed?.isSome) ∨
      t.unboxed?.isSome ∧ x.ty.isPrim → (x.assignTo t).ty = t) := by
  refine ⟨⟨x.assignTo_assignTo t, Operand.convertTo_of_ty (x.convertTo_ty t), x.promote_promote,
    x.unwrap_unwrap, op.convert_convert l r⟩, x.convertTo_ty t, Operand.assignTo_eq_convertTo, ?_⟩
  rintro (hty | ⟨ht, hx⟩ | ⟨ht, hx⟩)
  · rw [Operand.assignTo_of_ty hty, hty]
  · obtain ⟨kind, hkind⟩ := Ty.exists_kind? hx
    obtain ⟨k, rfl⟩ := Ty.isPrim_iff.1 ht
    rw [Operand.assignTo_prim hkind, Operand.asKind_ty]
  · obtain ⟨kind, hkind⟩ := Ty.isPrim_iff.1 hx
    obtain ⟨k, hk⟩ := Option.isSome_iff_exists.1 ht
    rw [Ty.eq_boxed_of_unboxed? hk, Operand.assignTo_boxed hkind]
    rfl

/-- An `int` for a wrapper of `long` is widened and boxed, and a boxed `byte` added to an `int` is
unboxed and widened. Doing either again changes nothing. -/
theorem conversions_settle_widened :
    let one : Operand := ⟨.literal (.int 1) .int, .int⟩
    let b : Operand := ⟨.localVar "b" .frame, .boxed .byte⟩
    let stored : Operand := ⟨.box (.cast one.tree (.prim .long)) .long, .boxed .long⟩
    let sum : Operand × Operand := (⟨.cast (.unbox b.tree .byte) .int, .int⟩, one)
    one.assignTo (.boxed .long) = stored ∧ stored.assignTo (.boxed .long) = stored ∧
      one.convertTo (.boxed .long) = stored ∧
      BinaryOp.add.convert b one = sum ∧ BinaryOp.add.convert sum.1 sum.2 = sum := by
  intro one b stored sum
  have hstored : one.assignTo (.boxed .long) = stored := rfl
  have hsum : BinaryOp.add.convert b one = sum := rfl
  obtain ⟨⟨htwice, -, -, -, hpair⟩, -, hcast, hreaches⟩ :=
    conversions_settle one b one (.boxed .long) .add
  have hcast := hcast (hreaches (.inr (.inr ⟨by decide, rfl⟩)))
  rw [hstored] at htwice hcast
  rw [hsum] at hpair
  exact ⟨hstored, htwice, hcast.symm, hsum, hpair⟩

end Breakpoint
