import Breakpoint.Proofs.Conversion
import Breakpoint.Proofs.Nodes
import Breakpoint.Proofs.Outcome
import Mathlib.Tactic.Common

/-!
What one node of an expression can bring into a tree, and for what it can be blamed. Each node
brings expression nodes; enclosing instances among them lie within reach of the suspended position,
and declared locals are visible. Each step of a compilation is covered by the node it is made for:
names and members, conversions, operators and arguments.
-/

namespace Breakpoint

/-- The enclosing instance `depth` steps outwards exists: there is a current instance, there are
enough classes, and each class on the way keeps an enclosing instance. -/
def Site.Reaches (s : Site) (depth : Nat) : Prop :=
  s.position.hasThis ∧ depth < s.position.classes.length ∧
    ∀ i < depth, ∃ c, s.position.classes[i]? = some c ∧ s.hierarchy.hasOuterInstance c

/-- A local that cannot be used here: one of the compiled code that is not visible, or one of a
method whose class is not around the position. -/
def View.Hides (v : View) (d : LocalDecl) : Prop :=
  match d.origin with
  | .fragment => v.visible d.name = false
  | .method declaring => declaring ∉ v.position.classes

/-- The nodes that an expression can compile to. -/
def View.Admits (v : View) : Tree → Prop
  | .thisAt depth | .superAt depth => v.toSite.Reaches depth
  | .localVar name .fragment => v.visible name
  | .pin _ | .block _ | .declare _ | .ifElse .. | .whileLoop .. | .doLoop .. | .forLoop ..
  | .breakTo _ | .continueTo _ | .returnValue _ | .throwValue _ | .fragment _ => False
  | _ => True

/-- The nodes that a node of an expression can bring into a compiled tree. A local or a field that
is looked up at run time stands for an unresolved name, unless the field is the length of an array.
-/
def View.Makes (v : View) (e : Expr) : Tree → Prop
  | .localVar _ .deferred => v.options.deferUnresolvedNames
  | .field object name .any => v.options.deferUnresolvedNames ∨ ∃ note q decl,
      e = .name note (some q) name decl ∧ View.isLength q name ∧ v.lower .value q = .ok object
  | t => v.Admits t

theorem View.Makes.admits {v : View} {e : Expr} {t : Tree} (h : v.Makes e t) : v.Admits t := by
  unfold Makes at h
  split at h
  · trivial
  · trivial
  · exact h

/-- The causes for which an expression is blamed with its own excerpt. -/
def Cause.ofExpr : Cause → Bool
  | unsupportedConstruct _ | arrayDimensionsNotSupported | anonymousClassNotSupported
  | operationNotSupported _ | notAnLvalue | superNotAValue | missingType | incompatibleOperand ..
  | notAnArray _ | incompatibleTypes .. | unresolvedSymbol _ | unresolvedMethod _
  | thisNotAvailable | noEnclosingInstance _ => true
  | _ => false

/-- The refusals that one node of an expression can bring about. -/
inductive View.Raises (v : View) : Expr → Fault → Prop where
  | node (e : Expr) {cause : Cause} (hcause : cause.ofExpr) : Raises v e ⟨cause, e.excerpt⟩
  | hidden {note : Note} {qualifier : Option Expr} {name : String} {d : LocalDecl}
      (hidden : v.Hides d) :
      Raises v (.name note qualifier name (.localVar d)) ⟨.localNotAccessible d.name, note.excerpt⟩
  | operands {note : Note} {first x : Expr} {rest : List Expr} {ops : List BinaryOp}
      (hx : x ∈ rest) (op : BinaryOp) (left right : String) :
      Raises v (.chain note (first :: rest) ops) ⟨.incompatibleOperands op left right,
        x.excerpt.text, (first.excerpt.span.orElse note.excerpt.span).through x.excerpt.span⟩

/-- Every refusal that the node can bring about satisfies `F`, and every node that it can bring into
a tree satisfies `p`. -/
structure View.Covers (v : View) (F : Fault → Prop) (p : Tree → Prop) (e : Expr) : Prop where
  refuses : ∀ fault, v.Raises e fault → F fault
  makes : ∀ t, v.Makes e t → p t

theorem View.Covers.own {v : View} {F : Fault → Prop} {p : Tree → Prop} {e : Expr}
    (h : v.Covers F p e) (cause : Cause) (hcause : cause.ofExpr) : F ⟨cause, e.excerpt⟩ :=
  h.refuses _ (.node e hcause)

theorem Hierarchy.hops?_eq_some {h : Hierarchy} {target : ClassId} {classes : List ClassId}
    {depth : Nat} (hhops : h.hops? target classes = some depth) :
    depth < classes.length ∧ ∀ i < depth, ∃ c, classes[i]? = some c ∧ h.hasOuterInstance c := by
  induction classes generalizing depth with
  | nil => cases hhops
  | cons c rest ih =>
      unfold hops? at hhops
      split_ifs at hhops with htarget houter
      · cases hhops
        exact ⟨Nat.zero_lt_succ _, by simp⟩
      · obtain ⟨d, hd, rfl⟩ := Option.map_eq_some_iff.1 hhops
        obtain ⟨hlt, hall⟩ := ih hd
        refine ⟨Nat.succ_lt_succ hlt, fun i hi => ?_⟩
        cases i with
        | zero => exact ⟨c, rfl, houter⟩
        | succ i => exact hall i (Nat.lt_of_succ_lt_succ hi)

/-- The holder of a captured local stands right inside the declaring class. -/
theorem holder?_eq_some {declaring holder : ClassId} {classes passed : List ClassId}
    (h : holder? declaring classes = some (passed, holder)) :
    ∃ rest, classes = passed ++ holder :: declaring :: rest := by
  fun_induction holder? declaring classes generalizing passed with
  | case1 inner rest =>
      cases h
      exact ⟨rest, rfl⟩
  | case2 inner outer rest hne ih =>
      obtain ⟨⟨p, c⟩, hfound, heq⟩ := Option.map_eq_some_iff.1 h
      cases heq
      obtain ⟨tail, htail⟩ := ih hfound
      exact ⟨tail, by rw [htail]; rfl⟩
  | case3 => cases h

theorem holder?_eq_none {declaring : ClassId} {classes : List ClassId}
    (h : holder? declaring classes = none) : declaring ∉ classes.tail := by
  fun_induction holder? declaring classes with
  | case1 => cases h
  | case2 inner outer rest hne ih =>
      have htail := ih (Option.map_eq_none_iff.1 h)
      simp only [List.tail_cons, List.mem_cons, not_or] at htail ⊢
      exact ⟨fun heq => hne heq.symm, htail⟩
  | case3 classes hshort =>
      match classes with
      | [] => simp
      | [_] => simp
      | _ :: _ :: _ => exact absurd rfl (hshort _ _ _)

section Access

variable {F : Fault → Prop} {excerpt : Excerpt}

theorem Site.hopDepth_meets (s : Site) (target : ClassId)
    (hF : ∀ cause : Cause, cause.ofExpr → F ⟨cause, excerpt⟩) :
    Meets F s.Reaches (s.hopDepth target excerpt) := by
  unfold hopDepth
  split
  next hthis =>
    split
    next depth hhops => exact ⟨hthis, Hierarchy.hops?_eq_some hhops⟩
    · exact hF _ rfl
  · exact hF _ rfl

theorem Site.instanceDepth_meets (s : Site) (qualifier : Option ClassId)
    (hF : ∀ cause : Cause, cause.ofExpr → F ⟨cause, excerpt⟩) :
    Meets F s.Reaches (s.instanceDepth qualifier excerpt) := by
  cases qualifier with
  | some c => exact s.hopDepth_meets c hF
  | none =>
      unfold instanceDepth
      dsimp only
      split
      next hthis =>
        refine ⟨hthis, ?_, by simp⟩
        have hne : s.position.classes ≠ [] := by
          intro hnil
          simp [Position.hasThis, hnil] at hthis
        exact List.length_pos_iff.2 hne
      · exact hF _ rfl

variable {v : View} {p : Tree → Prop} {e : Expr}

theorem View.Covers.every (h : v.Covers F p e) {t : Tree} (ht : v.Makes e t)
    (hchildren : ∀ s ∈ t.children, s.Every p) : t.Every p :=
  Tree.every_iff.2 ⟨h.makes t ht, hchildren⟩

theorem View.Covers.every_thisAt (h : v.Covers F p e) {depth : Nat}
    (hdepth : v.toSite.Reaches depth) : (Tree.thisAt depth).Every p :=
  h.every hdepth (by simp [Tree.children])

theorem View.thisFor_meets (h : v.Covers F p e) (target : ClassId) :
    Meets F (Tree.Every p) (v.thisFor target e.excerpt) :=
  (v.hopDepth_meets target h.own).map fun _ hdepth => h.every_thisAt hdepth

theorem View.memberOwner_meets (h : v.Covers F p e) (declaring : ClassId) (isStatic : Bool)
    {receiver : Option Tree} (hreceiver : ∀ object ∈ receiver, object.Every p) :
    Meets F (Tree.Every p) (v.memberOwner declaring isStatic receiver e.excerpt) := by
  unfold Site.memberOwner
  split
  · exact h.every trivial (by simp [Tree.children])
  · cases receiver with
    | some object => exact hreceiver object rfl
    | none => exact thisFor_meets h declaring

theorem View.fieldAccess_meets (h : v.Covers F p e) (d : FieldDecl) {receiver : Option Tree}
    (hreceiver : ∀ object ∈ receiver, object.Every p) :
    Meets F (Tree.Every p) (v.fieldAccess d receiver e.excerpt) := by
  apply (memberOwner_meets h d.declaring d.modifiers.isStatic hreceiver).map
  intro object hobject
  exact h.every trivial (by simpa [Tree.children] using hobject)

theorem View.capturedLocal_meets (h : v.Covers F p e) (d : LocalDecl) (declaring : ClassId)
    (hhidden : declaring ∉ v.position.classes.tail → F ⟨.localNotAccessible d.name, e.excerpt⟩) :
    Meets F (Tree.Every p) (v.capturedLocal d declaring e.excerpt) := by
  unfold Site.capturedLocal
  split
  next hnone => exact hhidden (holder?_eq_none hnone)
  next passed holder hfound =>
    split
    · exact h.every trivial (by simp [Tree.children])
    · split
      · exact h.own _ rfl
      next hthis =>
        split
        next hall =>
          obtain ⟨rest, hclasses⟩ := holder?_eq_some hfound
          have hreach : v.toSite.Reaches passed.length := by
            refine ⟨by simpa using hthis, by simp [hclasses], fun i hi => ?_⟩
            refine ⟨passed[i], ?_, List.all_eq_true.1 hall _ (List.getElem_mem hi)⟩
            rw [hclasses, List.getElem?_append_left hi, List.getElem?_eq_getElem hi]
          exact h.every trivial (by simpa [Tree.children] using h.every_thisAt hreach)
        · exact h.own _ rfl

theorem View.localAccess_meets (h : v.Covers F p e) (d : LocalDecl)
    (hhidden : v.Hides d → F ⟨.localNotAccessible d.name, e.excerpt⟩) :
    Meets F (Tree.Every p) (v.localAccess d e.excerpt) := by
  unfold View.localAccess
  unfold View.Hides at hhidden
  split
  next horigin =>
    simp only [horigin] at hhidden
    split
    next hvisible => exact h.every hvisible (by simp [Tree.children])
    next hvisible => exact hhidden (by simpa using hvisible)
  next declaring horigin =>
    simp only [horigin] at hhidden
    split
    · refine h.every ?_ (by simp [Tree.children])
      cases d.parameter? <;> trivial
    next hcurrent =>
      refine capturedLocal_meets h d declaring fun htail => hhidden fun hmem => ?_
      rw [Position.current?] at hcurrent
      cases hclasses : v.position.classes with
      | nil => simp [hclasses] at hmem
      | cons c rest => simp_all

end Access

/-- The role asks for the value of an expression. -/
inductive Role.Reads : Role → Prop where
  | value : Reads .value
  | receiver : Reads .receiver

/-- What may be a place can compile to `t` in this role: `t` is read, or it can be stored to. -/
inductive Role.Permits : Role → Tree → Prop where
  | reads {role : Role} {t : Tree} (hreads : role.Reads) : Permits role t
  | target {t : Tree} (hlvalue : t.isLvalue) : Permits .target t

section Parts

variable {F : Fault → Prop} {note : Note}

theorem Role.plain_meets {P : Tree → Prop} {value : Except Fault Tree} (role : Role)
    (hF : ∀ cause : Cause, cause.ofExpr → F ⟨cause, note.excerpt⟩)
    (h : role.Reads → Meets F P value) : Meets F P (role.plain note value) := by
  cases role with
  | value => exact h .value
  | receiver => exact h .receiver
  | target => exact hF _ rfl
  | initializer ty => exact hF _ rfl

theorem Role.place_meets {P : Tree → Prop} {value : Except Fault Tree} (role : Role)
    (hF : ∀ cause : Cause, cause.ofExpr → F ⟨cause, note.excerpt⟩)
    (h : Meets F (fun t => role.Permits t → P t) value) : Meets F P (role.place note value) := by
  cases role with
  | target =>
      apply h.bind
      intro t ht
      split
      next hlvalue => exact ht (.target hlvalue)
      · exact hF _ rfl
  | value => exact h.imp fun t ht => ht (.reads .value)
  | receiver => exact h.imp fun t ht => ht (.reads .receiver)
  | initializer ty => exact hF _ rfl

theorem Note.needTy_meets (hF : ∀ cause : Cause, cause.ofExpr → F ⟨cause, note.excerpt⟩) :
    Meets F (fun ty => note.ty? = some ty) note.needTy := by
  unfold needTy
  split
  next ty hty => exact hty
  · exact hF _ rfl

theorem Expr.operand_meets {P : Tree → Prop} {outcome : Except Fault Tree} (e : Expr)
    (hF : ∀ cause : Cause, cause.ofExpr → F ⟨cause, e.excerpt⟩) (h : Meets F P outcome) :
    Meets F (fun x => P x.tree ∧ e.ty? = some x.ty) (e.operand outcome) :=
  (Note.needTy_meets hF).bind fun _ hty => h.bind fun _ ht => ⟨ht, hty⟩

theorem mem_assignEach {Q : Tree → Prop} {params : List Ty} {args : List Operand}
    (hargs : ∀ x ∈ args, ∀ y, x.Converts y → Q y.tree) :
    ∀ t ∈ assignEach params args, Q t := by
  intro t ht
  rw [assignEach, ← List.map_uncurry_zip_eq_zipWith] at ht
  obtain ⟨⟨param, x⟩, hx, rfl⟩ := List.mem_map.1 ht
  exact hargs x (List.of_mem_zip hx).2 _ (Operand.Converts.refl.assignTo param)

/-- Arguments reach a method converted, those of a collecting parameter in a new array. -/
theorem Hierarchy.arguments_meets {Q : Tree → Prop} (h : Hierarchy) (m : MethodDecl)
    {args : List Operand} {excerpt : Excerpt}
    (hF : ∀ cause : Cause, cause.ofExpr → F ⟨cause, excerpt⟩)
    (hargs : ∀ x ∈ args, ∀ y, x.Converts y → Q y.tree)
    (harray : ∀ ty elements, ty.isArray → (∀ t ∈ elements, Q t) →
      Q (.newArray ty none (some elements))) :
    Meets F (fun trees => ∀ t ∈ trees, Q t) (h.arguments m args excerpt) := by
  unfold arguments
  split
  · split
    · exact mem_assignEach hargs
    · exact hF _ rfl
  · split
    · exact hF _ rfl
    · split
      · exact hF _ rfl
      next component hcomponent =>
        split
        · exact mem_assignEach hargs
        · intro t ht
          rcases List.mem_append.1 ht with ht | ht
          · exact mem_assignEach (fun x hx => hargs x (List.mem_of_mem_take hx)) t ht
          · rw [List.mem_singleton.1 ht]
            refine harray _ _ (Ty.isArray_of_component? hcomponent) fun t ht => ?_
            obtain ⟨x, hx, rfl⟩ := List.mem_map.1 ht
            exact hargs x (List.mem_of_mem_drop hx) _ (Operand.Converts.refl.assignTo component)

end Parts

namespace View

variable {v : View} {F : Fault → Prop} {p : Tree → Prop}

/-- The outermost node of an expression whose nodes are covered. -/
theorem covers_own {e : Expr} (he : e.Every (v.Covers F p)) (cause : Cause)
    (hcause : cause.ofExpr) : F ⟨cause, e.excerpt⟩ :=
  (Expr.every_iff.1 he).1.own cause hcause

theorem Covers.converts {e : Expr} (h : v.Covers F p e) {x y : Operand} (hx : x.tree.Every p)
    (hxy : x.Converts y) : y.tree.Every p := by
  induction hxy with
  | refl => exact hx
  | cast _ _ ih => exact h.every trivial (by simpa [Tree.children] using ih)
  | box _ _ ih => exact h.every trivial (by simpa [Operand.boxAs, Tree.children] using ih)
  | unbox _ _ ih => exact h.every trivial (by simpa [Operand.unboxAs, Tree.children] using ih)

theorem simpleName_meets {note : Note} {qualifier : Option Expr} {name : String} {decl : Decl}
    (h : v.Covers F p (.name note qualifier name decl)) :
    Meets F (Tree.Every p) (v.simpleName note name decl) := by
  cases decl with
  | localVar d => exact localAccess_meets h d fun hidden => h.refuses _ (.hidden hidden)
  | field d => exact fieldAccess_meets h d (by simp)
  | method m => exact h.own _ rfl
  | type ty => exact h.every trivial (by simp [Tree.children])
  | unresolved =>
      unfold simpleName
      dsimp only
      split
      next hdefer => exact h.every hdefer (by simp [Tree.children])
      · exact h.own _ rfl

theorem qualifiedName_meets {note : Note} {q : Expr} {name : String} {decl : Decl}
    {object : Except Fault Tree} (onType : Bool)
    (h : v.Covers F p (.name note (some q) name decl))
    (hobject : Meets F (Tree.Every p) object) :
    Meets F (Tree.Every p) (v.qualifiedName note name onType object decl) := by
  cases decl with
  | field d =>
      unfold qualifiedName
      dsimp only
      split
      · exact fieldAccess_meets h d (by simp)
      · refine hobject.bind fun t ht => fieldAccess_meets h d ?_
        simpa using ht
  | unresolved =>
      unfold qualifiedName
      dsimp only
      split
      next hdefer =>
        exact hobject.bind fun t ht => h.every (.inl hdefer) (by simpa [Tree.children] using ht)
      · exact h.own _ rfl
  | localVar d => exact simpleName_meets h
  | method m => exact simpleName_meets h
  | type ty => exact simpleName_meets h

theorem eq_length_of_isLength {q : Expr} {name : String} (h : isLength q name) :
    name = "length" := by
  rw [isLength, Bool.and_eq_true, beq_iff_eq] at h
  exact h.1

theorem combine_meets {start : Span} {op : BinaryOp} {left right : Operand} {e x : Expr}
    (h : v.Covers F p e)
    (hF : ∀ l r, F ⟨.incompatibleOperands op l r, x.excerpt.text, start.through x.excerpt.span⟩)
    (hleft : left.tree.Every p) (hright : right.tree.Every p) :
    Meets F (fun x => x.tree.Every p) (v.combine start op left right x) := by
  obtain ⟨hl, hr⟩ := op.converts_convert left right
  unfold combine
  dsimp only
  split
  · refine h.every trivial ?_
    simpa [Tree.children] using ⟨h.converts hleft hl, h.converts hright hr⟩
  · exact hF _ _

theorem converts_unaryOperand (op : UnaryOp) (x : Operand) : x.Converts (unaryOperand op x) := by
  cases op with
  | not => exact Operand.Converts.refl.unwrap
  | _ => exact Operand.Converts.refl.promote

theorem applyUnary_meets {note : Note} {op : UnaryOp} {operand : Expr} {x : Operand}
    (h : v.Covers F p (.unary note op operand)) (hx : x.tree.Every p) :
    Meets F (Tree.Every p) (v.applyUnary note op x) := by
  have hoperand := h.converts hx (converts_unaryOperand op x)
  unfold applyUnary
  dsimp only
  split
  · exact h.every trivial (by simpa [Tree.children] using hoperand)
  · exact h.own _ rfl

theorem condition_meets {e : Expr} {x : Operand} (he : e.Every (v.Covers F p))
    (hx : x.tree.Every p) : Meets F (Tree.Every p) (v.condition e x) := by
  unfold condition
  dsimp only
  split
  · exact (Expr.every_iff.1 he).1.converts hx Operand.Converts.refl.unwrap
  · exact covers_own he _ rfl

theorem intValue_meets {e : Expr} {x : Operand} (he : e.Every (v.Covers F p))
    (hx : x.tree.Every p) : Meets F (Tree.Every p) (v.intValue e x) := by
  unfold intValue
  dsimp only
  split
  · exact (Expr.every_iff.1 he).1.converts hx Operand.Converts.refl.promote
  · exact covers_own he _ rfl

theorem createdTy_meets {note : Note} {dims : Nat}
    (hF : ∀ cause : Cause, cause.ofExpr → F ⟨cause, note.excerpt⟩) :
    Meets F (fun ty => note.ty? = some ty ∧ ty.isArray ∧ dims ≤ 1) (v.createdTy note dims) := by
  apply (Note.needTy_meets hF).bind
  intro ty hty
  split
  · exact hF _ rfl
  next harray =>
    split
    · exact hF _ rfl
    next hdims => exact ⟨hty, by simpa using harray, Nat.le_of_not_lt hdims⟩

/-- A step stores a conversion of the operation on the converted place and a converted one. -/
theorem stepTree_eq (op : StepOp) (form : StepForm) {kind : Kind} {ty : Ty} (place : Tree)
    (hkind : ty.kind? = some kind) :
    ∃ read one value : Operand,
      (Operand.mk place ty).Converts read ∧ read.ty = .prim (kind.join .int) ∧
      (Operand.mk (.literal (.int 1) .int) .int).Converts one ∧ one.ty = .prim (kind.join .int) ∧
      (Operand.mk (.binary op.binary read.tree one.tree (.prim (kind.join .int)))
        (.prim (kind.join .int))).Converts value ∧
      stepTree op form kind ty place = .assign place value.tree (form == .after) := by
  have hread := Operand.Converts.refl.unwrap.castPrim (x := ⟨place, ty⟩)
    (Operand.unwrap_ty_of_kind? hkind) (kind.join .int)
  have hone := Operand.Converts.refl.castPrim (x := ⟨.literal (.int 1) .int, .int⟩) rfl
    (kind.join .int)
  have hstored (t : Tree) :=
    Operand.Converts.refl.castPrim (x := ⟨t, .prim (kind.join .int)⟩) rfl kind
  by_cases hclass : ty.isClass
  · refine ⟨_, _, _, hread, Operand.castTo_ty _ _, hone, Operand.castTo_ty _ _,
      (hstored _).box (Operand.castTo_ty _ _), ?_⟩
    simp only [stepTree, hclass, if_true, Operand.boxAs]
  · refine ⟨_, _, _, hread, Operand.castTo_ty _ _, hone, Operand.castTo_ty _ _, hstored _, ?_⟩
    simp only [stepTree, hclass, if_false, Bool.false_eq_true]

theorem Covers.stepTree {e : Expr} (h : v.Covers F p e) (op : StepOp) (form : StepForm)
    {kind : Kind} {ty : Ty} (hkind : ty.kind? = some kind) {place : Tree}
    (hplace : place.Every p) : (stepTree op form kind ty place).Every p := by
  obtain ⟨read, one, value, hread, -, hone, -, hvalue, heq⟩ := stepTree_eq op form place hkind
  rw [heq]
  refine h.every trivial ?_
  have hliteral : (Tree.literal (.int 1) .int).Every p :=
    h.every trivial (by simp [Tree.children])
  have hbinary (ty : Ty) : (Tree.binary op.binary read.tree one.tree ty).Every p := by
    refine h.every trivial ?_
    simpa [Tree.children] using ⟨h.converts hplace hread, h.converts hliteral hone⟩
  simpa [Tree.children] using ⟨hplace, h.converts (hbinary _) hvalue⟩

end View

end Breakpoint
