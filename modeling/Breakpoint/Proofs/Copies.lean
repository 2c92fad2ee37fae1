import Breakpoint.Proofs.Correspondence

/-!
Copies of expressions. An expression and a copy of it are compiled side by side, each in a view of
its own. The copy may be spelled in another way and may lack parentheses, and what its names refer
to may be found in another way. Given that, and that copies cannot be told apart from outside, an
expression and its copy come to corresponding outcomes.
-/

namespace Breakpoint

/-- A way to copy expressions form by form. Notes, constants and what names refer to may be replaced
in the copy. What becomes of parentheses is left open. -/
structure Expr.Copier where
  copy : Expr → Expr
  note : Note → Note := id
  constant : Constant → Constant := id
  decl : Decl → Decl := id
  copy_literal : ∀ (n : Note) (value : Constant),
    copy (.literal n value) = .literal (note n) (constant value) := by intros; rfl
  copy_name : ∀ (n : Note) (q : Option Expr) (x : String) (d : Decl),
    copy (.name n q x d) = .name (note n) (q.map copy) x (decl d)
  copy_thisRef : ∀ (n : Note) (c : Option ClassId),
    copy (.thisRef n c) = .thisRef (note n) c := by intros; rfl
  copy_superRef : ∀ (n : Note) (c : Option ClassId),
    copy (.superRef n c) = .superRef (note n) c := by intros; rfl
  copy_classLiteral : ∀ (n : Note) (ty : Ty),
    copy (.classLiteral n ty) = .classLiteral (note n) ty := by intros; rfl
  copy_chain : ∀ (n : Note) (xs : List Expr) (ops : List BinaryOp),
    copy (.chain n xs ops) = .chain (note n) (xs.map copy) ops
  copy_unary : ∀ (n : Note) (op : UnaryOp) (x : Expr),
    copy (.unary n op x) = .unary (note n) op (copy x) := by intros; rfl
  copy_step : ∀ (n : Note) (op : StepOp) (form : StepForm) (x : Expr),
    copy (.step n op form x) = .step (note n) op form (copy x) := by intros; rfl
  copy_assign : ∀ (n : Note) (op : AssignOp) (x y : Expr),
    copy (.assign n op x y) = .assign (note n) op (copy x) (copy y) := by intros; rfl
  copy_conditional : ∀ (n : Note) (c x y : Expr),
    copy (.conditional n c x y) = .conditional (note n) (copy c) (copy x) (copy y) := by
      intros; rfl
  copy_instanceOf : ∀ (n : Note) (x : Expr) (ty : Ty),
    copy (.instanceOf n x ty) = .instanceOf (note n) (copy x) ty := by intros; rfl
  copy_cast : ∀ (n : Note) (ty : Ty) (x : Expr),
    copy (.cast n ty x) = .cast (note n) ty (copy x) := by intros; rfl
  copy_index : ∀ (n : Note) (x i : Expr),
    copy (.index n x i) = .index (note n) (copy x) (copy i) := by intros; rfl
  copy_call : ∀ (n : Note) (q : Option Expr) (x : String) (m : Option MethodDecl)
    (args : List Expr), copy (.call n q x m args) = .call (note n) (q.map copy) x m (args.map copy)
  copy_newInstance : ∀ (n : Note) (c : ClassId) (m : MethodDecl) (q : Option Expr)
    (args : List Expr) (anonymous : Bool), copy (.newInstance n c m q args anonymous) =
      .newInstance (note n) c m (q.map copy) (args.map copy) anonymous
  copy_newArray : ∀ (n : Note) (dims : List Expr) (init : Option Expr),
    copy (.newArray n dims init) = .newArray (note n) (dims.map copy) (init.map copy)
  copy_braces : ∀ (n : Note) (xs : List Expr), copy (.braces n xs) = .braces (note n) (xs.map copy)
  copy_lambda : ∀ n : Note, copy (.lambda n) = .lambda (note n) := by intros; rfl
  copy_methodRef : ∀ n : Note, copy (.methodRef n) = .methodRef (note n) := by intros; rfl

/-- The local that an expression names by itself. -/
def Expr.local? : Expr → Option LocalDecl
  | .name _ _ _ (.localVar d) => some d
  | _ => none

/-- The locals that the expression names, at any depth, are all in `D`. -/
def Expr.Names (D : LocalDecl → Prop) (e : Expr) : Prop := e.Every fun n => ∀ d ∈ n.local?, D d

namespace View

variable {v w : View} {L : Leeway} {R : Tree → Tree → Prop} {k : Expr.Copier} {q : Expr → Prop}

/-- In every role the expression and its copy come to corresponding outcomes. -/
def Follows (v w : View) (L : Leeway) (R : Tree → Tree → Prop) (k : Expr.Copier) (e : Expr) :
    Prop :=
  ∀ role, Corresponds L R (v.lower role e) (w.lower role (k.copy e))

/-- Parentheses that are kept pass the role on to what is inside, which is no brace list to them. -/
theorem Follows.paren {note note' : Note} {inner : Expr}
    (hcopy : k.copy (.paren note inner) = .paren note' (k.copy inner))
    (hnote : L.Blames note.excerpt note'.excerpt) (h : v.Follows w L R k inner) :
    v.Follows w L R k (.paren note inner) := by
  intro role
  rw [hcopy]
  cases role with
  | initializer ty =>
      rw [lower, lower]
      exact .refuse hnote
  | _ =>
      rw [lower, lower]
      · exact h _
      · simp
      · simp

/-- Copies of expressions with nodes in `q` cannot be told apart from outside. Constants and names
come to corresponding outcomes, and so does what is in parentheses if what is inside does. -/
structure Copies (v w : View) (L : Leeway) (R : Tree → Tree → Prop) (k : Expr.Copier)
    (q : Expr → Prop) : Prop where
  aligned : v.Aligned w.toSite
  places : L.Places R
  note : ∀ note : Note, note.Resembles L (k.note note)
  resembles : ∀ e : Expr, e.Every q → e.Resembles L (k.copy e)
  start : ∀ (note : Note) (first e : Expr), first.Every q → e.Every q → L.Blames
    ⟨e.excerpt.text, (first.excerpt.span.orElse note.excerpt.span).through e.excerpt.span⟩
    ⟨(k.copy e).excerpt.text, ((k.copy first).excerpt.span.orElse
      (k.note note).excerpt.span).through (k.copy e).excerpt.span⟩
  literal : ∀ value : Constant,
    R (.literal value value.ty) (.literal (k.constant value) (k.constant value).ty)
  simpleName : ∀ (note : Note) (n : String) (decl : Decl), q (.name note none n decl) →
    Corresponds L R (v.simpleName note n decl) (w.simpleName (k.note note) n (k.decl decl))
  qualifiedName : ∀ (note : Note) (e : Expr) (n : String) (decl : Decl),
    q (.name note (some e) n decl) → ∀ (onType : Bool) (x y : Except Fault Tree),
      Corresponds L R x y → Corresponds L R (v.qualifiedName note n onType x decl)
        (w.qualifiedName (k.note note) n onType y (k.decl decl))
  paren : ∀ (note : Note) (inner : Expr), (Expr.paren note inner).Every q →
    v.Follows w L R k inner → v.Follows w L R k (.paren note inner)

namespace Copies

theorem operand (h : v.Copies w L R k q) {e : Expr} (he : e.Every q)
    (hfollows : v.Follows w L R k e) :
    Corresponds L (Operand.Related R) (e.operand (v.lower .value e))
      ((k.copy e).operand (w.lower .value (k.copy e))) :=
  Expr.operand_corresponds (h.resembles e he) (hfollows .value)

theorem needTy (h : v.Copies w L R k q) {e : Expr} (he : e.Every q) :
    Corresponds L Eq e.note.needTy (k.copy e).note.needTy :=
  Note.needTy_corresponds (h.resembles e he).note

theorem receiver (needed : Bool) {front : Option Expr}
    (hfollows : ∀ e ∈ front, v.Follows w L R k e) :
    Corresponds L (Option.Rel R) (v.lowerReceiver needed front)
      (w.lowerReceiver needed (front.map k.copy)) := by
  cases front with
  | none =>
      rw [Option.map_none, lowerReceiver, lowerReceiver]
      exact .none
  | some e =>
      rw [Option.map_some, lowerReceiver, lowerReceiver]
      split
      · exact (hfollows e rfl .receiver).map fun _ _ => .some
      · exact .none

theorem operands (h : v.Copies w L R k q) {exprs : List Expr} (hexprs : ∀ e ∈ exprs, e.Every q)
    (hfollows : ∀ e ∈ exprs, v.Follows w L R k e) :
    Corresponds L (List.Forall₂ (Operand.Related R)) (v.lowerOperands exprs)
      (w.lowerOperands (exprs.map k.copy)) := by
  induction exprs with
  | nil =>
      rw [List.map_nil, lowerOperands, lowerOperands]
      exact .nil
  | cons e rest ih =>
      obtain ⟨he, hrest⟩ := List.forall_mem_cons.1 hexprs
      obtain ⟨hfirst, hfollows⟩ := List.forall_mem_cons.1 hfollows
      rw [List.map_cons, lowerOperands, lowerOperands]
      refine (h.operand he hfirst).bind fun x y hxy => ?_
      exact (ih hrest hfollows).bind fun _ _ => .cons hxy

variable [Tree.Congruence R]

theorem enclosing (h : v.Copies w L R k q) (note : Note) (outerClass : Option ClassId)
    {outer : Option Expr} (hfollows : ∀ e ∈ outer, v.Follows w L R k e) :
    Corresponds L (List.Forall₂ R) (v.lowerEnclosing note outerClass outer)
      (w.lowerEnclosing (k.note note) outerClass (outer.map k.copy)) := by
  cases outer with
  | none =>
      cases outerClass with
      | none =>
          rw [Option.map_none, lowerEnclosing, lowerEnclosing]
          exact .nil
      | some c =>
          rw [Option.map_none, lowerEnclosing, lowerEnclosing]
          exact (h.aligned.thisFor c (h.note note).blames).map fun _ _ ht => .cons ht .nil
  | some e =>
      rw [Option.map_some, lowerEnclosing, lowerEnclosing]
      split
      · exact (hfollows e rfl .value).map fun _ _ ht => .cons ht .nil
      · exact .nil

theorem elements (h : v.Copies w L R k q) (component : Ty) {exprs : List Expr}
    (hexprs : ∀ e ∈ exprs, e.Every q) (hfollows : ∀ e ∈ exprs, v.Follows w L R k e) :
    Corresponds L (List.Forall₂ R) (v.lowerElements component exprs)
      (w.lowerElements component (exprs.map k.copy)) := by
  induction exprs with
  | nil =>
      rw [List.map_nil, lowerElements, lowerElements]
      exact .nil
  | cons e rest ih =>
      obtain ⟨he, hrest⟩ := List.forall_mem_cons.1 hexprs
      obtain ⟨hfirst, hfollows⟩ := List.forall_mem_cons.1 hfollows
      have hresembles := h.resembles e he
      rw [List.map_cons, lowerElements, lowerElements, Expr.storedRole_eq hresembles]
      refine (Expr.stored_corresponds hresembles component (hfirst _)).bind fun _ _ htree => ?_
      exact (ih hrest hfollows).bind fun _ _ => .cons htree

theorem rest (h : v.Copies w L R k q) {note : Note} {first : Expr} (hfirst : first.Every q)
    {exprs : List Expr} (hexprs : ∀ e ∈ exprs, e.Every q)
    (hfollows : ∀ e ∈ exprs, v.Follows w L R k e) :
    ∀ (ops : List BinaryOp) {left left' : Operand}, left.Related R left' →
      Corresponds L (Operand.Related R)
        (v.lowerRest (first.excerpt.span.orElse note.excerpt.span) left exprs ops)
        (w.lowerRest ((k.copy first).excerpt.span.orElse (k.note note).excerpt.span) left'
          (exprs.map k.copy) ops) := by
  induction exprs with
  | nil =>
      intro ops left left' hleft
      rw [List.map_nil, lowerRest, lowerRest]
      · exact hleft
      · simp
      · simp
  | cons e rest ih =>
      obtain ⟨he, hrest⟩ := List.forall_mem_cons.1 hexprs
      obtain ⟨hnext, hfollows⟩ := List.forall_mem_cons.1 hfollows
      intro ops left left' hleft
      rw [List.map_cons]
      cases ops with
      | nil =>
          rw [lowerRest, lowerRest]
          · exact hleft
          · simp
          · simp
      | cons op ops =>
          rw [lowerRest, lowerRest]
          refine (h.operand he hnext).bind fun right right' hright => ?_
          refine (combine_corresponds h.aligned op (h.start note first e hfirst he) hleft
            hright).bind ?_
          exact fun whole whole' hwhole => ih hrest hfollows ops hwhole

/-- An expression follows its copy if its children do. This is where the forms of expressions are
gone through. -/
theorem follows_of_children (h : v.Copies w L R k q) (e : Expr)
    (ih : ∀ s ∈ e.children, s.Every q → v.Follows w L R k s) (he : e.Every q) :
    v.Follows w L R k e := by
  intro role
  obtain ⟨hq, hchildren⟩ := Expr.every_iff.1 he
  -- Whatever is asked of a child, its copy gives a corresponding answer.
  have hfollows (s : Expr) (hs : s ∈ e.children) : v.Follows w L R k s := ih s hs (hchildren s hs)
  have hoperand (s : Expr) (hs : s ∈ e.children) := h.operand (hchildren s hs) (hfollows s hs)
  have hneedTy (s : Expr) (hs : s ∈ e.children) := h.needTy (hchildren s hs)
  have hblames (s : Expr) (hs : s ∈ e.children) := (h.resembles s (hchildren s hs)).note.blames
  cases e with
  | literal note value =>
      rw [k.copy_literal, lower, lower]
      exact role.plain_corresponds (h.note note).blames (h.literal value)
  | name note front n decl =>
      have hnote := (h.note note).blames
      cases front with
      | none =>
          rw [k.copy_name, Option.map_none, lower, lower]
          exact role.place_corresponds h.places hnote (h.simpleName note n decl hq)
      | some e =>
          have he := hfollows e (by simp [Expr.children])
          have hresembles := h.resembles e (hchildren e (by simp [Expr.children]))
          have hlength : isLength e n = isLength (k.copy e) n := by
            rw [isLength, isLength, Expr.ty?, Expr.ty?, hresembles.note.ty]
          rw [k.copy_name, Option.map_some, lower, lower, hlength, hresembles.isTypeName]
          refine role.place_corresponds h.places hnote ?_
          split
          · exact (he .value).map fun _ _ => Tree.Congruence.field
          · exact h.qualifiedName note e n decl hq _ _ _ (he .receiver)
  | thisRef note c =>
      have hdepth := h.aligned.instanceDepth c (h.note note).blames
      rw [k.copy_thisRef, lower, lower]
      refine role.plain_corresponds (h.note note).blames (hdepth.map fun depth _ heq => ?_)
      exact heq ▸ Tree.Congruence.thisAt depth
  | superRef note c =>
      have hnote := (h.note note).blames
      rw [k.copy_superRef]
      cases role with
      | receiver =>
          rw [lower, lower]
          refine (h.aligned.instanceDepth c hnote).map fun depth _ heq => ?_
          exact heq ▸ Tree.Congruence.superAt depth
      | _ =>
          rw [lower, lower]
          · exact Role.plain_corresponds _ hnote (.refuse hnote)
          · simp
          · simp
  | classLiteral note ty =>
      rw [k.copy_classLiteral, lower, lower]
      exact role.plain_corresponds (h.note note).blames (Tree.Congruence.classObject ty)
  | paren note inner => exact h.paren note inner he (hfollows inner (by simp [Expr.children])) role
  | chain note operands ops =>
      have hnote := (h.note note).blames
      cases operands with
      | nil =>
          rw [k.copy_chain, List.map_nil, lower, lower]
          exact role.plain_corresponds hnote (.refuse hnote)
      | cons first rest =>
          obtain ⟨hfirst, hrest⟩ := List.forall_mem_cons.1 hchildren
          obtain ⟨hfirst', hrest'⟩ := List.forall_mem_cons.1 hfollows
          rw [k.copy_chain, List.map_cons, lower, lower, List.length_map]
          refine role.plain_corresponds hnote ?_
          split
          · exact .refuse hnote
          · refine (h.operand hfirst hfirst').bind fun left left' hleft => ?_
            exact (h.rest hfirst hrest hrest' ops hleft).bind fun _ _ hwhole => hwhole.tree
  | unary note op x =>
      rw [k.copy_unary, lower, lower]
      refine role.plain_corresponds (h.note note).blames ?_
      refine (hoperand x (by simp [Expr.children])).bind fun _ _ hxy => ?_
      exact applyUnary_corresponds h.aligned (h.note note).blames op hxy
  | step note op form x =>
      rw [k.copy_step, lower, lower]
      refine role.plain_corresponds (h.note note).blames ?_
      refine (hneedTy x (by simp [Expr.children])).bind_eq fun ty => ?_
      exact stepPlace_corresponds h.aligned (h.note note).blames op form ty
        (hfollows x (by simp [Expr.children]) .target)
  | assign note op x y =>
      have hnote := (h.note note).blames
      cases op with
      | compound op =>
          rw [k.copy_assign, lower, lower]
          exact role.plain_corresponds hnote (.refuse hnote)
      | plain =>
          rw [k.copy_assign, lower, lower]
          refine role.plain_corresponds hnote ?_
          refine (hneedTy x (by simp [Expr.children])).bind_eq fun ty => ?_
          refine (hfollows x (by simp [Expr.children]) .target).bind fun _ _ hplace => ?_
          refine (hoperand y (by simp [Expr.children])).bind fun _ _ hxy => ?_
          exact Tree.Congruence.assign hplace (hxy.assignTo ty).tree
  | conditional note c x y =>
      rw [k.copy_conditional, lower, lower]
      refine role.plain_corresponds (h.note note).blames ?_
      refine (Note.needTy_corresponds (h.note note)).bind_eq fun ty => ?_
      refine (hoperand c (by simp [Expr.children])).bind fun a b hab => ?_
      have hblame := hblames c (by simp [Expr.children])
      refine (condition_corresponds h.aligned hblame hab).bind fun _ _ htest => ?_
      refine (hoperand x (by simp [Expr.children])).bind fun _ _ hx => ?_
      refine (hoperand y (by simp [Expr.children])).bind fun _ _ hy => ?_
      exact Tree.Congruence.conditional htest (hx.assignTo ty).tree (hy.assignTo ty).tree
  | instanceOf note x target =>
      rw [k.copy_instanceOf, lower, lower]
      refine role.plain_corresponds (h.note note).blames ?_
      refine (hoperand x (by simp [Expr.children])).bind fun _ _ hxy => ?_
      rw [hxy.ty, typeName_eq h.aligned]
      split
      · exact .refuse (h.note note).blames
      · exact Tree.Congruence.instanceOf hxy.tree
  | cast note target x =>
      rw [k.copy_cast, lower, lower]
      refine role.plain_corresponds (h.note note).blames ?_
      refine (hoperand x (by simp [Expr.children])).bind fun _ _ hxy => ?_
      exact (hxy.convertTo target).tree
  | index note x i =>
      rw [k.copy_index, lower, lower]
      refine role.place_corresponds h.places (h.note note).blames ?_
      refine (hneedTy x (by simp [Expr.children])).bind_eq fun ty => ?_
      rw [typeName_eq h.aligned]
      split
      · exact .refuse (h.note note).blames
      · refine (hfollows x (by simp [Expr.children]) .value).bind fun a b hab => ?_
        refine (hoperand i (by simp [Expr.children])).bind fun _ _ hxy => ?_
        have hblame := hblames i (by simp [Expr.children])
        refine (intValue_corresponds h.aligned hblame hxy).bind fun _ _ hindex => ?_
        exact Tree.Congruence.element hab hindex
  | call note front n m args =>
      have hnote := (h.note note).blames
      cases m with
      | none =>
          rw [k.copy_call, lower, lower]
          exact role.plain_corresponds hnote (.refuse hnote)
      | some m =>
          have hfront := receiver (!m.modifiers.isStatic) fun e he =>
            hfollows e (List.mem_append_left _ (Option.mem_toList.2 he))
          have hargs := h.operands (fun e he => hchildren e (List.mem_append_right _ he))
            fun e he => hfollows e (List.mem_append_right _ he)
          rw [k.copy_call, lower, lower]
          refine role.plain_corresponds hnote (hfront.bind fun _ _ hfront => ?_)
          refine (h.aligned.memberOwner m.declaring _ hnote hfront).bind fun _ _ hobject => ?_
          refine hargs.bind fun _ _ hargs => ?_
          rw [h.aligned.hierarchy]
          refine (w.hierarchy.arguments_corresponds m hnote hargs).bind fun _ _ htrees => ?_
          exact Tree.Congruence.call hobject htrees
  | newInstance note c m outer args anonymous =>
      have hnote := (h.note note).blames
      have houter := h.enclosing note (v.outerOfInner? c) fun e he =>
        hfollows e (List.mem_append_left _ (Option.mem_toList.2 he))
      have hargs := h.operands (fun e he => hchildren e (List.mem_append_right _ he))
        fun e he => hfollows e (List.mem_append_right _ he)
      rw [k.copy_newInstance, lower, lower, ← outerOfInner?_eq h.aligned]
      refine role.plain_corresponds hnote ?_
      split
      · exact .refuse hnote
      · refine houter.bind fun _ _ houter => hargs.bind fun _ _ hargs => ?_
        rw [h.aligned.hierarchy]
        refine (w.hierarchy.arguments_corresponds m hnote hargs).bind fun _ _ htrees => ?_
        exact Tree.Congruence.newInstance (List.rel_append houter htrees)
  | newArray note dims init =>
      have hnote := (h.note note).blames
      have hcreated (dims : Nat) := createdTy_corresponds h.aligned (h.note note) dims
      cases init with
      | some init =>
          have hinit := hfollows init (by simp [Expr.children])
          rw [k.copy_newArray, Option.map_some, lower, lower, List.length_map]
          refine role.plain_corresponds hnote ?_
          exact (hcreated _).bind_eq fun ty => hinit (.initializer ty)
      | none =>
          cases dims with
          | nil =>
              rw [k.copy_newArray, Option.map_none, List.map_nil, lower, lower]
              refine role.plain_corresponds hnote ?_
              exact (hcreated _).bind_eq fun _ => .refuse hnote
          | cons dim rest =>
              rw [k.copy_newArray, Option.map_none, List.map_cons, lower, lower, List.length_map]
              refine role.plain_corresponds hnote ((hcreated _).bind_eq fun ty => ?_)
              refine (hoperand dim (by simp [Expr.children])).bind fun _ _ hxy => ?_
              have hblame := hblames dim (by simp [Expr.children])
              refine (intValue_corresponds h.aligned hblame hxy).bind fun _ _ hlength => ?_
              exact Tree.Congruence.newArray (.some hlength) .none
  | braces note elements =>
      have hnote := (h.note note).blames
      have harray (ty : Ty) := arrayOf_corresponds h.aligned hnote ty fun component =>
        h.elements component hchildren hfollows
      rw [k.copy_braces]
      cases role with
      | target =>
          rw [lower, lower]
          exact .refuse hnote
      | initializer ty =>
          rw [lower, lower]
          exact harray ty
      | _ =>
          rw [lower, lower]
          exact (Note.needTy_corresponds (h.note note)).bind_eq harray
  | lambda note =>
      rw [k.copy_lambda, lower, lower]
      exact role.plain_corresponds (h.note note).blames (.refuse (h.note note).blames)
  | methodRef note =>
      rw [k.copy_methodRef, lower, lower]
      exact role.plain_corresponds (h.note note).blames (.refuse (h.note note).blames)

theorem follows (h : v.Copies w L R k q) (e : Expr) : e.Every q → v.Follows w L R k e :=
  Expr.children_induction (motive := fun e => e.Every q → v.Follows w L R k e)
    h.follows_of_children e

/-- An expression and its copy come to corresponding outcomes, also as conditions. -/
theorem lowerCondition (h : v.Copies w L R k q) {e : Expr} (he : e.Every q) :
    Corresponds L R (v.lowerCondition e) (w.lowerCondition (k.copy e)) :=
  (h.operand he (h.follows e he)).bind fun _ _ hxy =>
    condition_corresponds h.aligned (h.resembles e he).note.blames hxy

theorem lowerInitial (h : v.Copies w L R k q) (ty : Ty) {e : Expr} (he : e.Every q) :
    Corresponds L R (v.lowerInitial ty e) (w.lowerInitial ty (k.copy e)) := by
  have hresembles := h.resembles e he
  rw [View.lowerInitial, View.lowerInitial, Expr.storedRole_eq hresembles]
  exact Expr.stored_corresponds hresembles ty (h.follows e he _)

end Copies

end View

end Breakpoint
