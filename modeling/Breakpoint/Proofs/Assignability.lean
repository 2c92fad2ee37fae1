import Breakpoint.Proofs.Inheritance

/-!
Assignability as an order. A value of one type may be stored as another by a handful of rules for
classes, arrays and null. As long as nothing stands above the root class, these rules compose: what
may be stored in two steps may be stored in one. Seen from the elements of arrays there is a single
rule, which depends on the difference of the dimensions only, so an array type is assignable to
another exactly if its components are.
-/

namespace Breakpoint

namespace Hierarchy

variable {h : Hierarchy} {a b c : ClassId} {s t u : Ty}

/-- The root class is not known, or it extends and implements nothing. -/
def RootOnTop (h : Hierarchy) : Prop :=
  ∀ root, h.get? ClassId.object = some root → root.superclass = none ∧ root.interfaces = []

theorem RootOnTop.eq_object_of_inherits (hroot : h.RootOnTop)
    (hpath : h.Inherits ClassId.object c) : c = ClassId.object := by
  rcases hpath.cases_head with heq | ⟨next, ⟨root, hknown, hlink⟩, -⟩
  · exact heq.symm
  · obtain ⟨hsuper, hinterfaces⟩ := hroot root hknown
    simp [hsuper, hinterfaces] at hlink

theorem RootOnTop.eq_object_of_isSubclass (hroot : h.RootOnTop)
    (hsub : h.isSubclass ClassId.object c) : c = ClassId.object := by
  rcases isSubclass_iff.1 hsub with hpath | hobject
  · exact hroot.eq_object_of_inherits hpath
  · exact hobject

theorem isSubclass_refl (h : Hierarchy) (c : ClassId) : h.isSubclass c c :=
  isSubclass_iff.2 (.inl .refl)

theorem RootOnTop.isSubclass_trans (hroot : h.RootOnTop) (hab : h.isSubclass a b)
    (hbc : h.isSubclass b c) : h.isSubclass a c := by
  rw [isSubclass_iff] at hab hbc ⊢
  rcases hbc with hbc | hobject
  · rcases hab with hab | rfl
    · exact .inl (hab.trans hbc)
    · exact .inr (hroot.eq_object_of_inherits hbc)
  · exact .inr hobject

/-- A value of the first type may be stored as the second. -/
inductive Assigns (h : Hierarchy) : Ty → Ty → Prop where
  | self (t : Ty) : Assigns h t t
  | null {t : Ty} (ht : t.isReference) : Assigns h .null t
  | subclass {a b : ClassId} (hab : h.isSubclass a b) : Assigns h (.ofClass a) (.ofClass b)
  | arrayObject {element : Element} {dims : UInt8} :
      Assigns h (.array element dims) (.ofClass ClassId.object)
  | elements {a b : ClassId} {dims : UInt8} (hab : h.isSubclass a b) :
      Assigns h (.array (.ofClass a) dims) (.array (.ofClass b) dims)
  | deeper {element : Element} {m n : UInt8} (hnm : n < m) :
      Assigns h (.array element m) (.array (.ofClass ClassId.object) n)

theorem isAssignable_iff : h.isAssignable s t ↔ h.Assigns s t := by
  constructor
  · intro hst
    rcases Bool.or_eq_true_iff.1 hst with heq | hrule
    · exact eq_of_beq heq ▸ .self s
    · split at hrule
      · exact .null hrule
      · exact .subclass hrule
      · exact eq_of_beq hrule ▸ .arrayObject
      · split at hrule
        next hdims => exact hdims ▸ .elements hrule
        · obtain ⟨hnm, hobject⟩ := Bool.and_eq_true_iff.1 hrule
          exact eq_of_beq hobject ▸ .deeper (of_decide_eq_true hnm)
      · obtain ⟨hnm, hobject⟩ := Bool.and_eq_true_iff.1 hrule
        exact eq_of_beq hobject ▸ .deeper (of_decide_eq_true hnm)
      · cases hrule
  · intro hst
    refine Bool.or_eq_true_iff.2 ?_
    cases hst with
    | self => exact .inl (beq_self_eq_true s)
    | null ht => exact .inr ht
    | subclass hab => exact .inr hab
    | arrayObject => exact .inr (beq_self_eq_true _)
    | elements hab => exact .inr (by simpa using hab)
    | @deeper element m n hnm =>
        refine .inr ?_
        cases element with
        | prim kind => simpa using hnm
        | ofClass a =>
            have hne : m ≠ n := (UInt8.ne_of_lt hnm).symm
            simpa [hne] using hnm

theorem Assigns.isReference (hst : h.Assigns s t) (hs : s.isReference) : t.isReference := by
  cases hst with
  | self => exact hs
  | null ht => exact ht
  | _ => rfl

/-- Nothing comes between a type and what it may be stored as. -/
theorem RootOnTop.assigns_trans (hroot : h.RootOnTop) (hst : h.Assigns s t)
    (htu : h.Assigns t u) : h.Assigns s u := by
  cases hst with
  | self => exact htu
  | null ht => exact .null (htu.isReference ht)
  | subclass hab =>
      cases htu with
      | self => exact .subclass hab
      | subclass hbc => exact .subclass (hroot.isSubclass_trans hab hbc)
  | arrayObject =>
      cases htu with
      | self => exact .arrayObject
      | subclass hbc =>
          rw [hroot.eq_object_of_isSubclass hbc]
          exact .arrayObject
  | elements hab =>
      cases htu with
      | self => exact .elements hab
      | arrayObject => exact .arrayObject
      | elements hbc => exact .elements (hroot.isSubclass_trans hab hbc)
      | deeper hnm => exact .deeper hnm
  | deeper hnm =>
      cases htu with
      | self => exact .deeper hnm
      | arrayObject => exact .arrayObject
      | elements hbc =>
          rw [hroot.eq_object_of_isSubclass hbc]
          exact .deeper hnm
      | deeper hpn => exact .deeper (UInt8.lt_trans hpn hnm)

end Hierarchy

namespace Ty

variable {s s' : Ty} {e : Element} {m : Nat}

/-- Not an array without dimensions. -/
def WellFormed (t : Ty) : Prop := ∀ element, t ≠ .array element 0

/-- The elements of an array and the number of its dimensions. A primitive type or a class counts as
its own element, with no dimension. -/
def shape? : Ty → Option (Element × Nat)
  | void | null => none
  | prim kind => some (.prim kind, 0)
  | ofClass c => some (.ofClass c, 0)
  | array element dims => some (element, dims.toNat)

theorem wellFormed_array_iff {dims : UInt8} : (array e dims).WellFormed ↔ 0 < dims.toNat := by
  have hzero : dims = 0 ↔ dims.toNat = 0 := UInt8.toNat_inj.symm
  rw [Nat.pos_iff_ne_zero, Ne, ← hzero]
  constructor
  · rintro h rfl
    exact h e rfl
  · rintro hne element heq
    exact hne (array.inj heq).2

/-- A well-formed type is told by its shape. -/
theorem eq_of_shape? (hs : s.WellFormed) (hshape : s.shape? = some (e, m)) :
    (m = 0 ∧ s = e.toTy) ∨ ∃ dims : UInt8, dims.toNat = m ∧ 0 < m ∧ s = .array e dims := by
  cases s with
  | array element dims =>
      cases hshape
      exact .inr ⟨dims, rfl, wellFormed_array_iff.1 hs, rfl⟩
  | prim kind =>
      cases hshape
      exact .inl ⟨rfl, rfl⟩
  | ofClass c =>
      cases hshape
      exact .inl ⟨rfl, rfl⟩
  | _ => cases hshape

theorem toNat_add_one {dims : UInt8} (h : dims ≠ 255) : (dims + 1).toNat = dims.toNat + 1 := by
  have hlt := dims.toNat_lt
  have hne : dims.toNat ≠ 255 := fun heq => h (UInt8.toNat_inj.1 heq)
  rw [UInt8.toNat_add, UInt8.toNat_one]
  omega

/-- An array has the elements of its components and one dimension more. -/
theorem shape?_arrayOf? (h : s.arrayOf? = some s') :
    ∃ e m, s.shape? = some (e, m) ∧ s'.shape? = some (e, m + 1) ∧ s'.WellFormed := by
  cases s with
  | prim kind =>
      cases h
      exact ⟨_, _, rfl, rfl, wellFormed_array_iff.2 Nat.one_pos⟩
  | ofClass c =>
      cases h
      exact ⟨_, _, rfl, rfl, wellFormed_array_iff.2 Nat.one_pos⟩
  | array element dims =>
      rw [arrayOf?] at h
      split at h
      · cases h
      next hroom =>
        cases h
        have hdims := toNat_add_one hroom
        refine ⟨_, _, rfl, by rw [shape?, hdims], wellFormed_array_iff.2 ?_⟩
        rw [hdims]
        exact Nat.succ_pos _
  | _ => cases h

theorem component?_arrayOf? (hs : s.WellFormed) (h : s.arrayOf? = some s') :
    s'.component? = some s := by
  cases s with
  | prim kind =>
      cases h
      rfl
  | ofClass c =>
      cases h
      rfl
  | array element dims =>
      rw [arrayOf?] at h
      split at h
      · cases h
      next hroom =>
        cases h
        have hdims := toNat_add_one hroom
        have hpos := wellFormed_array_iff.1 hs
        have hzero : dims + 1 ≠ 0 := by
          rw [Ne, ← UInt8.toNat_inj, hdims, UInt8.toNat_zero]
          omega
        have hone : dims + 1 ≠ 1 := by
          rw [Ne, ← UInt8.toNat_inj, hdims, UInt8.toNat_one]
          omega
        rw [component?, if_neg hzero, if_neg hone, UInt8.add_sub_cancel]
  | _ => cases h

theorem arrayOf?_component? {dims : UInt8} (h : dims ≠ 0) :
    (array e dims).component?.bind arrayOf? = some (.array e dims) := by
  rw [component?, if_neg h]
  split
  next hone =>
    rw [hone]
    cases e <;> rfl
  next hone =>
    have hroom : dims - 1 ≠ 255 := fun heq => h <| by
      rw [← UInt8.sub_add_cancel dims 1, heq]
      rfl
    rw [Option.bind_some, arrayOf?, if_neg hroom, UInt8.sub_add_cancel]

end Ty

namespace Hierarchy

variable {h : Hierarchy} {s t : Ty} {e f : Element} {m n : Nat}

/-- An element of an array may be stored as the element of another array. -/
def AssignsElement (h : Hierarchy) (e f : Element) : Prop :=
  e = f ∨ ∃ a b, e = .ofClass a ∧ f = .ofClass b ∧ h.isSubclass a b

/-- Assignability depends on the elements and on the difference of the dimensions: with as many
dimensions the elements decide, and with more of them the components are objects. -/
theorem assigns_iff (hs : s.WellFormed) (ht : t.WellFormed) (hshape : s.shape? = some (e, m))
    (hshape' : t.shape? = some (f, n)) : h.Assigns s t ↔
      (m = n ∧ h.AssignsElement e f) ∨ (n < m ∧ f = .ofClass ClassId.object) := by
  constructor
  · intro hst
    cases hst with
    | self =>
        cases hshape.symm.trans hshape'
        exact .inl ⟨rfl, .inl rfl⟩
    | null => cases hshape
    | subclass hab =>
        cases hshape
        cases hshape'
        exact .inl ⟨rfl, .inr ⟨_, _, rfl, rfl, hab⟩⟩
    | arrayObject =>
        cases hshape
        cases hshape'
        exact .inr ⟨Ty.wellFormed_array_iff.1 hs, rfl⟩
    | elements hab =>
        cases hshape
        cases hshape'
        exact .inl ⟨rfl, .inr ⟨_, _, rfl, rfl, hab⟩⟩
    | deeper hnm =>
        cases hshape
        cases hshape'
        exact .inr ⟨UInt8.lt_iff_toNat_lt.1 hnm, rfl⟩
  · rintro (⟨rfl, helement⟩ | ⟨hnm, rfl⟩)
    · rcases Ty.eq_of_shape? hs hshape with ⟨hm, rfl⟩ | ⟨dims, hdims, hm, rfl⟩
      · rcases Ty.eq_of_shape? ht hshape' with ⟨-, rfl⟩ | ⟨_, -, hm', -⟩
        · rcases helement with rfl | ⟨a, b, rfl, rfl, hab⟩
          · exact .self _
          · exact .subclass hab
        · omega
      · rcases Ty.eq_of_shape? ht hshape' with ⟨hm', -⟩ | ⟨dims', hdims', -, rfl⟩
        · omega
        · obtain rfl : dims = dims' := UInt8.toNat_inj.1 (hdims.trans hdims'.symm)
          rcases helement with rfl | ⟨a, b, rfl, rfl, hab⟩
          · exact .self _
          · exact .elements hab
    · rcases Ty.eq_of_shape? hs hshape with ⟨hm, -⟩ | ⟨dims, hdims, -, rfl⟩
      · omega
      · rcases Ty.eq_of_shape? ht hshape' with ⟨-, rfl⟩ | ⟨dims', hdims', -, rfl⟩
        · exact .arrayObject
        · exact .deeper (UInt8.lt_iff_toNat_lt.2 (by omega))

/-- Array types are covariant. -/
theorem assigns_arrayOf_iff {s' t' : Ty} (hs : s.WellFormed) (ht : t.WellFormed)
    (hs' : s.arrayOf? = some s') (ht' : t.arrayOf? = some t') :
    h.Assigns s' t' ↔ h.Assigns s t := by
  obtain ⟨e, m, hshape, hshape', hwell⟩ := Ty.shape?_arrayOf? hs'
  obtain ⟨f, n, htshape, htshape', htwell⟩ := Ty.shape?_arrayOf? ht'
  rw [assigns_iff hwell htwell hshape' htshape', assigns_iff hs ht hshape htshape,
    Nat.add_right_cancel_iff, Nat.add_lt_add_iff_right]

end Hierarchy

/-- Assignability is a preorder, and array types follow their components. Let the root class be
unknown, or extend and implement nothing. Then every class is a subclass of itself, and a subclass
of a subclass is a subclass; every type is assignable to itself, and assignability composes, for
arrays without dimensions too. For other types the arrays of them, where there are any, are
assignable exactly if they are, and have them as components; and every array with a dimension is the
array of its components. -/
theorem assignability_preorder (h : Hierarchy) (hroot : h.RootOnTop) :
    (∀ c, h.isSubclass c c) ∧
    (∀ a b c, h.isSubclass a b → h.isSubclass b c → h.isSubclass a c) ∧
    (∀ t, h.isAssignable t t) ∧
    (∀ s t u, h.isAssignable s t → h.isAssignable t u → h.isAssignable s u) ∧
    (∀ s t s' t' : Ty, s.WellFormed → t.WellFormed → s.arrayOf? = some s' → t.arrayOf? = some t' →
      (h.isAssignable s' t' ↔ h.isAssignable s t) ∧ s'.component? = some s) ∧
    ∀ (element : Element) (dims : UInt8), dims ≠ 0 →
      (Ty.array element dims).component?.bind Ty.arrayOf? = some (.array element dims) := by
  refine ⟨h.isSubclass_refl, fun _ _ _ => hroot.isSubclass_trans,
    fun t => Hierarchy.isAssignable_iff.2 (.self t), fun s t u hst htu => ?_,
    fun s t s' t' hs ht hs' ht' => ?_, fun _ _ => Ty.arrayOf?_component?⟩
  · rw [Hierarchy.isAssignable_iff] at hst htu ⊢
    exact hroot.assigns_trans hst htu
  · rw [Hierarchy.isAssignable_iff, Hierarchy.isAssignable_iff]
    exact ⟨Hierarchy.assigns_arrayOf_iff hs ht hs' ht', Ty.component?_arrayOf? hs hs'⟩

/-- Among the classes that are always known, arrays of numbers are objects. Arrays of such arrays
are therefore arrays of objects, and objects. -/
theorem assignability_preorder_builtin :
    let row := Ty.array (.prim .int) 1
    let rows := Ty.array (.prim .int) 2
    let objects := Ty.array (.ofClass ClassId.object) 1
    Hierarchy.builtin.RootOnTop ∧ Hierarchy.builtin.isAssignable row .object ∧
      Hierarchy.builtin.isAssignable rows objects ∧
      Hierarchy.builtin.isAssignable rows .object := by
  intro row rows objects
  have hroot : Hierarchy.builtin.RootOnTop := by
    intro root hknown
    have hobject : Hierarchy.builtin.get? ClassId.object =
        some { ClassInfo.ofName "java.lang.Object" with superclass := none } := by
      decide +kernel
    cases hobject.symm.trans hknown
    exact ⟨rfl, rfl⟩
  have hassigns (dims : UInt8) (element : Element) :
      Hierarchy.builtin.isAssignable (.array element dims) .object :=
    Hierarchy.isAssignable_iff.2 .arrayObject
  obtain ⟨-, -, -, htrans, hcovariant, -⟩ := assignability_preorder Hierarchy.builtin hroot
  have hrows := (hcovariant row .object rows objects (Ty.wellFormed_array_iff.2 (by decide))
    (fun _ => by simp [Ty.object]) rfl rfl).1.2 (hassigns _ _)
  exact ⟨hroot, hassigns _ _, hrows, htrans rows objects .object hrows (hassigns _ _)⟩

end Breakpoint
