import Breakpoint.Operand.Pair

/-!
Conversions in single steps. Each conversion of an operand is a sequence of casts, boxings and
unboxings, and each of these finds an operand of the static type it is meant for: a boxing a value
of its kind, an unboxing the wrapper of its kind, and a cast another type than its own, never a
class in place of a primitive type or the other way round.
-/

namespace Breakpoint

theorem Kind.wrapper_of_ofWrapper? {c : ClassId} {kind : Kind} (h : Kind.ofWrapper? c = some kind) :
    kind.wrapper = c := by
  simpa using List.find?_some h

theorem Ty.eq_boxed_of_unboxed? {t : Ty} {kind : Kind} (h : t.unboxed? = some kind) :
    t = .boxed kind := by
  cases t with
  | ofClass c => rw [boxed, Kind.wrapper_of_ofWrapper? h]
  | _ => cases h

theorem Ty.isPrim_iff {t : Ty} : t.isPrim ↔ ∃ kind, t = .prim kind := by
  cases t <;> simp [isPrim]

theorem Ty.isClass_iff {t : Ty} : t.isClass ↔ ∃ c, t = .ofClass c := by
  cases t <;> simp [isClass]

theorem Ty.prim?_eq_some {t : Ty} {kind : Kind} : t.prim? = some kind ↔ t = .prim kind := by
  cases t <;> simp [prim?]

theorem Ty.isArray_of_component? {t component : Ty} (h : t.component? = some component) :
    t.isArray := by
  cases t with
  | array element dims => rfl
  | _ => cases h

/-- A cast from `source` to `target` changes the type, and neither boxes nor unboxes. -/
def Ty.CastsTo (source target : Ty) : Prop :=
  source ≠ target ∧ ¬(source.isPrim ∧ target.isClass) ∧ ¬(source.isClass ∧ target.isPrim)

namespace Operand

/-- The operand `y` is `x` after casts, boxings and unboxings that fit the types they find. -/
inductive Converts (x : Operand) : Operand → Prop where
  | refl : Converts x x
  | cast {y : Operand} {ty : Ty} (h : Converts x y) (hty : y.ty.CastsTo ty) :
      Converts x ⟨.cast y.tree ty, ty⟩
  | box {y : Operand} {kind : Kind} (h : Converts x y) (hty : y.ty = .prim kind) :
      Converts x (y.boxAs kind)
  | unbox {y : Operand} {kind : Kind} (h : Converts x y) (hty : y.ty = .boxed kind) :
      Converts x (y.unboxAs kind)

variable {x y : Operand}

theorem castTo_ty (x : Operand) (t : Ty) : (x.castTo t).ty = t := by
  unfold castTo
  split
  · assumption
  · rfl

theorem Converts.castTo (h : Converts x y) {t : Ty} (hclass : ¬(y.ty.isPrim ∧ t.isClass))
    (hprim : ¬(y.ty.isClass ∧ t.isPrim)) : Converts x (y.castTo t) := by
  unfold Operand.castTo
  split
  · exact h
  · exact h.cast ⟨‹_›, hclass, hprim⟩

/-- Between primitive types every cast is allowed. -/
theorem Converts.castPrim (h : Converts x y) {kind : Kind} (hty : y.ty = .prim kind) (k : Kind) :
    Converts x (y.castTo (.prim k)) := by
  refine h.castTo ?_ ?_
  · simp [Ty.isClass]
  · simp [hty, Ty.isClass]

theorem Converts.unwrap (h : Converts x y) : Converts x y.unwrap := by
  unfold Operand.unwrap
  split
  · exact h.unbox (Ty.eq_boxed_of_unboxed? ‹_›)
  · exact h

theorem unwrap_ty_of_kind? {kind : Kind} (h : x.ty.kind? = some kind) :
    x.unwrap.ty = .prim kind := by
  unfold Operand.unwrap
  cases hty : x.ty with
  | prim k =>
      rw [hty] at h
      cases h
      simpa [Ty.unboxed?] using hty
  | ofClass c =>
      have hunboxed : (Ty.ofClass c).unboxed? = some kind := by
        simpa [hty, Ty.kind?, Ty.prim?] using h
      rw [hunboxed]
      rfl
  | _ =>
      rw [hty] at h
      cases h

theorem Converts.promote (h : Converts x y) : Converts x y.promote := by
  unfold Operand.promote
  split
  · split
    next kind hkind =>
      obtain ⟨k, hk, -⟩ := Option.bind_eq_some_iff.1 hkind
      exact h.unwrap.castPrim (Ty.prim?_eq_some.1 hk) kind
    · exact h.unwrap
  · exact h

theorem Converts.assignTo (h : Converts x y) (target : Ty) : Converts x (y.assignTo target) := by
  unfold Operand.assignTo
  split
  · exact h
  · split
    next c kind hty _ =>
      exact (h.castPrim hty _).box (castTo_ty _ _)
    next kind c hty _ =>
      split
      next unboxed hunboxed =>
        exact (h.unbox (Ty.eq_boxed_of_unboxed? hunboxed)).castPrim rfl kind
      · exact h
    next k kind hty _ => exact h.castPrim hty k
    · exact h

theorem Converts.convertTo (h : Converts x y) (target : Ty) : Converts x (y.convertTo target) := by
  unfold Operand.convertTo
  split
  · exact h
  · split
    next kind c hty _ =>
      split
      next unboxed hunboxed =>
        exact (h.unbox (Ty.eq_boxed_of_unboxed? hunboxed)).castPrim rfl kind
      · refine Converts.castPrim (.unbox (h.castTo ?_ ?_) (castTo_ty _ _)) rfl kind
        · simp [hty, Ty.isPrim]
        · simp [Ty.boxed, Ty.isPrim]
    next c kind hty _ =>
      split
      next wrapped hwrapped =>
        rw [Ty.eq_boxed_of_unboxed? hwrapped]
        exact (h.castPrim hty wrapped).box (castTo_ty _ _)
      · refine (h.box hty).castTo ?_ ?_
        · simp [boxAs, Ty.boxed, Ty.isPrim]
        · simp [Ty.isPrim]
    next hunbox hbox =>
      refine h.castTo ?_ ?_
      · rintro ⟨hp, hc⟩
        obtain ⟨kind, hkind⟩ := Ty.isPrim_iff.1 hp
        obtain ⟨c, hc⟩ := Ty.isClass_iff.1 hc
        exact hbox c kind hc hkind
      · rintro ⟨hc, hp⟩
        obtain ⟨kind, hkind⟩ := Ty.isPrim_iff.1 hp
        obtain ⟨c, hc⟩ := Ty.isClass_iff.1 hc
        exact hunbox kind c hkind hc

end Operand

namespace BinaryOp

theorem numericPair?_eq_some {l r : Ty} {a b : Kind} (h : numericPair? l r = some (a, b)) :
    l = .prim a ∧ r = .prim b ∧ a.isNumeric ∧ b.isNumeric := by
  unfold numericPair? at h
  split at h
  · split at h
    next hnum =>
      cases h
      exact ⟨rfl, rfl, (Bool.and_eq_true_iff.1 hnum).1, (Bool.and_eq_true_iff.1 hnum).2⟩
    · cases h
  · cases h

/-- Both operands of a binary operation are converted in fitting steps. -/
theorem converts_convert (op : BinaryOp) (x y : Operand) :
    x.Converts (op.convert x y).1 ∧ y.Converts (op.convert x y).2 := by
  unfold convert
  generalize hpair : (if op.unwraps x.ty y.ty then (x.unwrap, y.unwrap) else (x, y)) = pair
  obtain ⟨l, r⟩ := pair
  have hl : x.Converts l ∧ y.Converts r := by
    split at hpair
    · cases hpair
      exact ⟨Operand.Converts.refl.unwrap, Operand.Converts.refl.unwrap⟩
    · cases hpair
      exact ⟨.refl, .refl⟩
  dsimp only
  split
  · exact ⟨hl.1.promote, hl.2.promote⟩
  · split
    · split
      next a b hnum =>
        obtain ⟨ha, hb, -⟩ := numericPair?_eq_some hnum
        exact ⟨hl.1.castPrim ha _, hl.2.castPrim hb _⟩
      · exact hl
    · exact hl

end BinaryOp

end Breakpoint
