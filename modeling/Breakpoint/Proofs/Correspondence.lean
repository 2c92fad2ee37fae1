import Breakpoint.Lower.Expr
import Breakpoint.Proofs.Likeness
import Breakpoint.Proofs.Nodes

/-!
Two compilations side by side. Their outcomes correspond if results are related and refusals are
alike, unless one side refuses for a reason of its own. Each step of compiling an expression keeps
this: given corresponding outcomes for the parts, and excerpts that are blamed alike, it comes to
corresponding outcomes for the whole.
-/

namespace Breakpoint

/-- How far the refusals of two compilations may differ: which ones count as alike, and which ones
either side may have alone. -/
structure Leeway where
  alike : Fault → Fault → Prop
  first : Fault → Prop
  second : Fault → Prop

/-- The cause names no local and no label of the compiled code. -/
def Cause.isPlain : Cause → Bool
  | variableRedeclaration _ | undefinedLabel _ | notALoopLabel _ | invalidLabelTarget _
  | localNotAccessible _ => false
  | _ => true

/-- It does not matter which of the two excerpts is blamed for a plain cause. -/
def Leeway.Blames (L : Leeway) (excerpt excerpt' : Excerpt) : Prop :=
  ∀ cause : Cause, cause.isPlain → L.alike ⟨cause, excerpt⟩ ⟨cause, excerpt'⟩

section Outcomes

variable {α β γ δ : Type} {L : Leeway} {R : α → β → Prop} {Q : γ → δ → Prop}

/-- Two results are related by `R`, two refusals are alike, and nothing else happens unless one side
has a refusal that it may have alone. -/
def Corresponds (L : Leeway) (R : α → β → Prop) : Except Fault α → Except Fault β → Prop
  | .ok a, .ok b => R a b
  | .error f, .ok _ => L.first f
  | .ok _, .error g => L.second g
  | .error f, .error g => L.alike f g ∨ L.first f ∨ L.second g

namespace Corresponds

variable {x : Except Fault α} {y : Except Fault β}

theorem refuse {excerpt excerpt' : Excerpt} {cause : Cause} (h : L.Blames excerpt excerpt')
    (hcause : cause.isPlain := by rfl) :
    Corresponds L R (excerpt.refuse cause) (excerpt'.refuse cause) :=
  .inl (h cause hcause)

theorem refl {R : α → α → Prop} (hL : ∀ fault, L.alike fault fault) (hR : ∀ a, R a a)
    (x : Except Fault α) : Corresponds L R x x := by
  cases x with
  | ok a => exact hR a
  | error fault => exact .inl (hL fault)

theorem refused {fault : Fault} (h : L.first fault) : Corresponds L R (.error fault) y := by
  cases y with
  | ok b => exact h
  | error g => exact .inr (.inl h)

theorem refused_right {fault : Fault} (h : L.second fault) : Corresponds L R x (.error fault) := by
  cases x with
  | ok a => exact h
  | error f => exact .inr (.inr h)

theorem mono {R' : α → β → Prop} (h : Corresponds L R x y) (hR : ∀ a b, R a b → R' a b) :
    Corresponds L R' x y := by
  cases x with
  | ok a =>
      cases y with
      | ok b => exact hR a b h
      | error g => exact h
  | error f =>
      cases y with
      | ok b => exact h
      | error g => exact h

theorem bind {k : α → Except Fault γ} {l : β → Except Fault δ} (h : Corresponds L R x y)
    (hk : ∀ a b, R a b → Corresponds L Q (k a) (l b)) : Corresponds L Q (x >>= k) (y >>= l) := by
  cases x with
  | ok a =>
      cases y with
      | ok b => exact hk a b h
      | error g => exact refused_right h
  | error f =>
      cases y with
      | ok b => exact refused h
      | error g => exact h

/-- What comes first has the same results on both sides. -/
theorem bind_eq {x y : Except Fault α} {k : α → Except Fault γ} {l : α → Except Fault δ}
    (h : Corresponds L Eq x y) (hk : ∀ a, Corresponds L Q (k a) (l a)) :
    Corresponds L Q (x >>= k) (y >>= l) :=
  h.bind fun a _ hab => hab ▸ hk a

theorem map {f : α → γ} {g : β → δ} (h : Corresponds L R x y) (hfg : ∀ a b, R a b → Q (f a) (g b)) :
    Corresponds L Q (x.map f) (y.map g) :=
  h.bind (k := fun a => .ok (f a)) (l := fun b => .ok (g b)) hfg

theorem ite (c : Prop) [Decidable c] {x' : Except Fault α} {y' : Except Fault β}
    (h : Corresponds L R x y) (h' : Corresponds L R x' y') :
    Corresponds L R (if c then x else x') (if c then y else y') := by
  split
  · exact h
  · exact h'

/-- What may be missing is compared if it is there. -/
theorem mapM {f : γ → Except Fault α} {g : δ → Except Fault β} {k : γ → δ} {o : Option γ}
    (h : ∀ c ∈ o, Corresponds L R (f c) (g (k c))) :
    Corresponds L (Option.Rel R) (o.mapM f) ((o.map k).mapM g) := by
  cases o with
  | none => exact .none
  | some c => exact (h c rfl).bind fun _ _ hab => .some hab

end Corresponds

end Outcomes

/-- The notes have the same type, and it does not matter which one is blamed. -/
structure Note.Resembles (L : Leeway) (note note' : Note) : Prop where
  ty : note.ty? = note'.ty?
  blames : L.Blames note.excerpt note'.excerpt

/-- The expressions cannot be told apart from outside. -/
structure Expr.Resembles (L : Leeway) (e e' : Expr) : Prop where
  note : e.note.Resembles L e'.note
  isTypeName : e.isTypeName = e'.isTypeName
  isBraces : e.isBraces = e'.isBraces

/-- The sites are at the same position among the same classes. -/
structure Site.Aligned (s s' : Site) : Prop where
  hierarchy : s.hierarchy = s'.hierarchy
  position : s.position = s'.position

/-- Related trees are places alike, or only the first side refuses to store to them. -/
def Leeway.Places (L : Leeway) (R : Tree → Tree → Prop) : Prop :=
  ∀ t u, R t u → t.isLvalue = u.isLvalue ∨
    t.isLvalue = false ∧ ∀ excerpt, L.first ⟨.notAnLvalue, excerpt⟩

section Parts

variable {L : Leeway} {R : Tree → Tree → Prop} {x y : Except Fault Tree} {note note' : Note}
  {excerpt excerpt' : Excerpt} {e e' : Expr}

theorem Role.plain_corresponds (role : Role) (hnote : L.Blames note.excerpt note'.excerpt)
    (h : Corresponds L R x y) : Corresponds L R (role.plain note x) (role.plain note' y) := by
  cases role with
  | value => exact h
  | receiver => exact h
  | target => exact .refuse hnote
  | initializer ty => exact .refuse hnote

theorem Role.place_corresponds (role : Role) (hplaces : L.Places R)
    (hnote : L.Blames note.excerpt note'.excerpt) (h : Corresponds L R x y) :
    Corresponds L R (role.place note x) (role.place note' y) := by
  cases role with
  | target =>
      refine h.bind fun t u htu => ?_
      rcases hplaces t u htu with heq | ⟨ht, hfirst⟩
      · rw [heq]
        split
        · exact htu
        · exact .refuse hnote
      · rw [if_neg (by simp [ht])]
        exact .refused (hfirst _)
  | value => exact h
  | receiver => exact h
  | initializer ty => exact .refuse hnote

theorem Note.needTy_corresponds (h : note.Resembles L note') :
    Corresponds L Eq note.needTy note'.needTy := by
  unfold needTy
  rw [h.ty]
  split
  · rfl
  · exact .refuse h.blames

theorem Expr.operand_corresponds (he : e.Resembles L e') (h : Corresponds L R x y) :
    Corresponds L (Operand.Related R) (e.operand x) (e'.operand y) :=
  (Note.needTy_corresponds he.note).bind_eq fun _ => h.bind fun _ _ htu => ⟨rfl, htu⟩

theorem Expr.storedRole_eq (he : e.Resembles L e') (ty : Ty) :
    e.storedRole ty = e'.storedRole ty := by
  rw [storedRole, storedRole, he.isBraces]

theorem map_ty_of_related {args args' : List Operand}
    (h : List.Forall₂ (Operand.Related R) args args') :
    args.map Operand.ty = args'.map Operand.ty := by
  induction h with
  | nil => rfl
  | cons hx _ ih => rw [List.map_cons, List.map_cons, hx.ty, ih]

variable [Tree.Congruence R]

theorem Expr.stored_corresponds (he : e.Resembles L e') (ty : Ty) (h : Corresponds L R x y) :
    Corresponds L R (e.stored ty x) (e'.stored ty y) := by
  unfold stored
  rw [he.isBraces]
  split
  · exact h
  · exact (Expr.operand_corresponds he h).map fun a b hab => (hab.assignTo ty).tree

theorem assignEach_related (params : List Ty) {args args' : List Operand}
    (h : List.Forall₂ (Operand.Related R) args args') :
    List.Forall₂ R (assignEach params args) (assignEach params args') := by
  unfold assignEach
  induction h generalizing params with
  | nil => simp
  | cons hx _ ih =>
      cases params with
      | nil => exact .nil
      | cons param params => exact .cons (hx.assignTo param).tree (ih params)

/-- Which arguments are collected is decided by their types. -/
theorem Hierarchy.fitsWhole_congr (h : Hierarchy) (collecting : Ty) {args args' : List Operand}
    (hty : args.map Operand.ty = args'.map Operand.ty) :
    h.fitsWhole collecting args = h.fitsWhole collecting args' := by
  have hlast (args : List Operand) : h.fitsWhole collecting args =
      (args.map Operand.ty).getLast?.any fun ty =>
        ty.isNull || (ty.isArray && h.isAssignable ty collecting) := by
    rw [List.getLast?_map, Option.any_map]
    rfl
  rw [hlast, hlast, hty]

theorem Hierarchy.arguments_corresponds (h : Hierarchy) (m : MethodDecl)
    (hexcerpt : L.Blames excerpt excerpt') {args args' : List Operand}
    (hargs : List.Forall₂ (Operand.Related R) args args') :
    Corresponds L (List.Forall₂ R) (h.arguments m args excerpt) (h.arguments m args' excerpt') := by
  unfold arguments
  rw [hargs.length_eq]
  split
  · split
    · exact assignEach_related _ hargs
    · exact .refuse hexcerpt
  next fixed collecting _ =>
    split
    · exact .refuse hexcerpt
    · split
      · exact .refuse hexcerpt
      next component _ =>
        rw [h.fitsWhole_congr collecting (map_ty_of_related hargs)]
        split
        · exact assignEach_related _ hargs
        · have helements : List.Forall₂ R
              ((args.drop fixed.length).map fun arg => (arg.assignTo component).tree)
              ((args'.drop fixed.length).map fun arg => (arg.assignTo component).tree) :=
            List.rel_map (fun _ _ hx => (hx.assignTo component).tree)
              (List.forall₂_drop _ hargs)
          refine List.rel_append (assignEach_related _ (List.forall₂_take _ hargs)) ?_
          exact .cons (Tree.Congruence.newArray .none (.some helements)) .nil

end Parts

namespace Site.Aligned

variable {s s' : Site} {L : Leeway} {R : Tree → Tree → Prop} [Tree.Congruence R]
  {excerpt excerpt' : Excerpt}

theorem hopDepth (h : s.Aligned s') (target : ClassId) (hexcerpt : L.Blames excerpt excerpt') :
    Corresponds L Eq (s.hopDepth target excerpt) (s'.hopDepth target excerpt') := by
  unfold Site.hopDepth
  rw [h.position, h.hierarchy]
  split
  · split
    · rfl
    · exact .refuse hexcerpt
  · exact .refuse hexcerpt

theorem thisFor (h : s.Aligned s') (target : ClassId) (hexcerpt : L.Blames excerpt excerpt') :
    Corresponds L R (s.thisFor target excerpt) (s'.thisFor target excerpt') :=
  (h.hopDepth target hexcerpt).map fun depth _ heq => heq ▸ Tree.Congruence.thisAt depth

theorem instanceDepth (h : s.Aligned s') (qualifier : Option ClassId)
    (hexcerpt : L.Blames excerpt excerpt') :
    Corresponds L Eq (s.instanceDepth qualifier excerpt) (s'.instanceDepth qualifier excerpt') := by
  cases qualifier with
  | some c => exact h.hopDepth c hexcerpt
  | none =>
      unfold Site.instanceDepth
      rw [h.position]
      dsimp only
      split
      · rfl
      · exact .refuse hexcerpt

theorem memberOwner (h : s.Aligned s') (declaring : ClassId) (isStatic : Bool)
    (hexcerpt : L.Blames excerpt excerpt') {a b : Option Tree} (hab : Option.Rel R a b) :
    Corresponds L R (s.memberOwner declaring isStatic a excerpt)
      (s'.memberOwner declaring isStatic b excerpt') := by
  unfold Site.memberOwner
  split
  · exact Tree.Congruence.typeRef _
  · cases hab with
    | some hab => exact hab
    | none => exact h.thisFor declaring hexcerpt

theorem fieldAccess (h : s.Aligned s') (d : FieldDecl) (hexcerpt : L.Blames excerpt excerpt')
    {a b : Option Tree} (hab : Option.Rel R a b) :
    Corresponds L R (s.fieldAccess d a excerpt) (s'.fieldAccess d b excerpt') :=
  (h.memberOwner d.declaring _ hexcerpt hab).map fun _ _ => Tree.Congruence.field

end Site.Aligned

namespace View

variable {v w : View} {L : Leeway} {R : Tree → Tree → Prop} [Tree.Congruence R] {note note' : Note}
  {e e' : Expr}

theorem typeName_eq (h : v.Aligned w.toSite) (ty : Ty) : v.typeName ty = w.typeName ty := by
  rw [typeName, typeName, h.hierarchy]

theorem outerOfInner?_eq (h : v.Aligned w.toSite) (c : ClassId) :
    v.outerOfInner? c = w.outerOfInner? c := by
  rw [outerOfInner?, outerOfInner?, h.hierarchy]

theorem combine_corresponds (h : v.Aligned w.toSite) {start start' : Span} (op : BinaryOp)
    (hblames : L.Blames ⟨e.excerpt.text, start.through e.excerpt.span⟩
      ⟨e'.excerpt.text, start'.through e'.excerpt.span⟩) {a a' b b' : Operand}
    (ha : a.Related R a') (hb : b.Related R b') :
    Corresponds L (Operand.Related R) (v.combine start op a b e)
      (w.combine start' op a' b' e') := by
  obtain ⟨hleft, hright⟩ := ha.convert hb op
  unfold combine
  dsimp only
  rw [hleft.ty, hright.ty, typeName_eq h, typeName_eq h]
  split
  · exact ⟨rfl, Tree.Congruence.binary hleft.tree hright.tree⟩
  · exact .refuse hblames

theorem applyUnary_corresponds (h : v.Aligned w.toSite)
    (hnote : L.Blames note.excerpt note'.excerpt) (op : UnaryOp) {x y : Operand}
    (hxy : x.Related R y) : Corresponds L R (v.applyUnary note op x) (w.applyUnary note' op y) := by
  have hoperand : (unaryOperand op x).Related R (unaryOperand op y) := by
    cases op with
    | not => exact hxy.unwrap
    | _ => exact hxy.promote
  unfold applyUnary
  dsimp only
  rw [hoperand.ty, typeName_eq h]
  split
  · exact Tree.Congruence.unary hoperand.tree
  · exact .refuse hnote

theorem stepTree_related (op : StepOp) (form : StepForm) (kind : Kind) (ty : Ty) {a b : Tree}
    (hab : R a b) : R (stepTree op form kind ty a) (stepTree op form kind ty b) := by
  have hread : Operand.Related R ⟨a, ty⟩ ⟨b, ty⟩ := ⟨rfl, hab⟩
  have hone : Operand.Related R ⟨.literal (.int 1) .int, .int⟩ ⟨.literal (.int 1) .int, .int⟩ :=
    ⟨rfl, Tree.Congruence.one⟩
  have hstepped (promoted : Ty) : Operand.Related R
      ⟨.binary op.binary ((Operand.mk a ty).unwrap.castTo promoted).tree
        ((Operand.mk (.literal (.int 1) .int) .int).castTo promoted).tree promoted, promoted⟩
      ⟨.binary op.binary ((Operand.mk b ty).unwrap.castTo promoted).tree
        ((Operand.mk (.literal (.int 1) .int) .int).castTo promoted).tree promoted, promoted⟩ :=
    ⟨rfl, Tree.Congruence.binary (hread.unwrap.castTo promoted).tree (hone.castTo promoted).tree⟩
  unfold stepTree
  refine Tree.Congruence.assign hab ?_
  split
  · exact Tree.Congruence.box ((hstepped _).castTo _).tree
  · exact ((hstepped _).castTo _).tree

theorem stepPlace_corresponds (h : v.Aligned w.toSite)
    (hnote : L.Blames note.excerpt note'.excerpt) (op : StepOp) (form : StepForm) (ty : Ty)
    {x y : Except Fault Tree} (hxy : Corresponds L R x y) :
    Corresponds L R (v.stepPlace note op form ty x) (w.stepPlace note' op form ty y) := by
  unfold stepPlace
  rw [typeName_eq h]
  split
  · exact hxy.map fun a b => stepTree_related op form _ ty
  · exact .refuse hnote

theorem condition_corresponds (h : v.Aligned w.toSite) (he : L.Blames e.excerpt e'.excerpt)
    {x y : Operand} (hxy : x.Related R y) :
    Corresponds L R (v.condition e x) (w.condition e' y) := by
  unfold condition
  dsimp only
  rw [hxy.unwrap.ty, typeName_eq h]
  split
  · exact hxy.unwrap.tree
  · exact .refuse he

theorem intValue_corresponds (h : v.Aligned w.toSite) (he : L.Blames e.excerpt e'.excerpt)
    {x y : Operand} (hxy : x.Related R y) :
    Corresponds L R (v.intValue e x) (w.intValue e' y) := by
  unfold intValue
  dsimp only
  rw [hxy.promote.ty, typeName_eq h]
  split
  · exact hxy.promote.tree
  · exact .refuse he

theorem createdTy_corresponds (h : v.Aligned w.toSite) (hnote : note.Resembles L note')
    (dims : Nat) : Corresponds L Eq (v.createdTy note dims) (w.createdTy note' dims) := by
  refine (Note.needTy_corresponds hnote).bind_eq fun ty => ?_
  rw [typeName_eq h]
  split
  · exact .refuse hnote.blames
  · split
    · exact .refuse hnote.blames
    · rfl

theorem arrayOf_corresponds (h : v.Aligned w.toSite)
    (hnote : L.Blames note.excerpt note'.excerpt) (ty : Ty) {xs ys : Ty → Except Fault (List Tree)}
    (hxs : ∀ component, Corresponds L (List.Forall₂ R) (xs component) (ys component)) :
    Corresponds L R (v.arrayOf note ty xs) (w.arrayOf note' ty ys) := by
  unfold arrayOf
  rw [typeName_eq h]
  split
  · exact (hxs _).map fun _ _ helements => Tree.Congruence.newArray .none (.some helements)
  · exact .refuse hnote

end View

end Breakpoint
