import Breakpoint.Proofs.Expression

/-!
One rule for each form of expression that compiles. A relation between expressions and trees that is
closed under the rules holds between every expression and what it compiles to, so that a property of
compiled expressions is a fact about each form, and the recursion is gone through once. The first
such property is that every node of a compiled tree is brought in by a node of the expression. Every
refusal blames one node of the expression for a cause that this node can have.
-/

namespace Breakpoint

variable {Q : Role → Expr → Tree → Prop} {F : Fault → Prop}

/-- The operand of an expression: a tree for its value, and the type noted on it. -/
structure Expr.Gives (Q : Role → Expr → Tree → Prop) (e : Expr) (x : Operand) : Prop where
  tree : Q .value e x.tree
  ty : e.ty? = some x.ty

/-- What is stored of an expression in a place of type `ty`: a brace list stands for an array of
that type, and any other value is converted to it. -/
inductive Expr.Stores (Q : Role → Expr → Tree → Prop) (ty : Ty) (e : Expr) : Tree → Prop where
  | braces {t : Tree} (ht : Q (.initializer ty) e t) : Stores Q ty e t
  | value {x : Operand} (hx : e.Gives Q x) : Stores Q ty e (x.assignTo ty).tree

/-- The operands of a chain, combined one by one with what stands to the left of them. -/
inductive View.Chains (v : View) (Q : Role → Expr → Tree → Prop) (start : Span) :
    Operand → List Expr → List BinaryOp → Operand → Prop where
  | nil {left : Operand} : Chains v Q start left [] [] left
  | cons {left right next whole : Operand} {e : Expr} {rest : List Expr} {op : BinaryOp}
      {ops : List BinaryOp} (hright : e.Gives Q right)
      (hnext : v.combine start op left right e = .ok next)
      (hrest : Chains v Q start next rest ops whole) :
      Chains v Q start left (e :: rest) (op :: ops) whole

/-- The object written in front of a member, which a static member does not need. -/
inductive Fronts (Q : Role → Expr → Tree → Prop) : Bool → Option Expr → Option Tree → Prop where
  | unneeded {qualifier : Option Expr} : Fronts Q true qualifier none
  | absent {isStatic : Bool} : Fronts Q isStatic none none
  | given {q : Expr} {t : Tree} (ht : Q .receiver q t) : Fronts Q false (some q) (some t)

/-- The enclosing instance that a created object takes first, if its class has one. -/
inductive View.Encloses (v : View) (Q : Role → Expr → Tree → Prop) (excerpt : Excerpt) :
    Option ClassId → Option Expr → List Tree → Prop where
  | unneeded {outer : Option Expr} : Encloses v Q excerpt none outer []
  | given {c : ClassId} {q : Expr} {t : Tree} (ht : Q .value q t) :
      Encloses v Q excerpt (some c) (some q) [t]
  | nearest {c : ClassId} {t : Tree} (ht : v.thisFor c excerpt = .ok t) :
      Encloses v Q excerpt (some c) none [t]

/-- The relation between expressions and trees is closed under each form of expression that
compiles. -/
structure View.Rules (v : View) (Q : Role → Expr → Tree → Prop) : Prop where
  literal {role : Role} {note : Note} {value : Constant} (hrole : role.Reads) :
    Q role (.literal note value) (.literal value value.ty)
  simpleName {role : Role} {note : Note} {name : String} {decl : Decl} {t : Tree}
    (hrole : role.Permits t) (ht : v.simpleName note name decl = .ok t) :
    Q role (.name note none name decl) t
  length {role : Role} {note : Note} {q : Expr} {name : String} {decl : Decl} {array : Tree}
    (hrole : role.Permits (.field array "length" .any)) (hlength : isLength q name)
    (hq : Q .value q array) (harray : v.lower .value q = .ok array) :
    Q role (.name note (some q) name decl) (.field array "length" .any)
  qualifiedName {role : Role} {note : Note} {q : Expr} {name : String} {decl : Decl} {t : Tree}
    (hrole : role.Permits t) (hlength : isLength q name = false)
    (hq : Yields (Q .receiver q) (v.lower .receiver q))
    (ht : v.qualifiedName note name q.isTypeName (v.lower .receiver q) decl = .ok t) :
    Q role (.name note (some q) name decl) t
  thisRef {role : Role} {note : Note} {qualifier : Option ClassId} {depth : Nat}
    (hrole : role.Reads) (hdepth : v.instanceDepth qualifier note.excerpt = .ok depth) :
    Q role (.thisRef note qualifier) (.thisAt depth)
  superRef {note : Note} {qualifier : Option ClassId} {depth : Nat}
    (hdepth : v.instanceDepth qualifier note.excerpt = .ok depth) :
    Q .receiver (.superRef note qualifier) (.superAt depth)
  classLiteral {role : Role} {note : Note} {ty : Ty} (hrole : role.Reads) :
    Q role (.classLiteral note ty) (.classObject ty)
  paren {role : Role} {note : Note} {inner : Expr} {t : Tree}
    (hrole : ∀ ty, role ≠ .initializer ty) (hinner : Q role inner t) :
    Q role (.paren note inner) t
  chain {role : Role} {note : Note} {first : Expr} {rest : List Expr} {ops : List BinaryOp}
    {left whole : Operand} (hrole : role.Reads) (hfirst : first.Gives Q left)
    (hrest : v.Chains Q (first.excerpt.span.orElse note.excerpt.span) left rest ops whole) :
    Q role (.chain note (first :: rest) ops) whole.tree
  unary {role : Role} {note : Note} {op : UnaryOp} {operand : Expr} {x : Operand} {t : Tree}
    (hrole : role.Reads) (hx : operand.Gives Q x) (ht : v.applyUnary note op x = .ok t) :
    Q role (.unary note op operand) t
  step {role : Role} {note : Note} {op : StepOp} {form : StepForm} {operand : Expr} {ty : Ty}
    {kind : Kind} {place : Tree} (hrole : role.Reads) (hty : operand.ty? = some ty)
    (hkind : ty.kind?.filter Kind.isNumeric = some kind) (hplace : Q .target operand place) :
    Q role (.step note op form operand) (stepTree op form kind ty place)
  assign {role : Role} {note : Note} {target value : Expr} {ty : Ty} {place : Tree} {x : Operand}
    (hrole : role.Reads) (hty : target.ty? = some ty) (hplace : Q .target target place)
    (hx : value.Gives Q x) :
    Q role (.assign note .plain target value) (.assign place (x.assignTo ty).tree false)
  conditional {role : Role} {note : Note} {condition thenValue elseValue : Expr} {ty : Ty}
    {c x y : Operand} {test : Tree} (hrole : role.Reads) (hty : note.ty? = some ty)
    (hc : condition.Gives Q c) (htest : v.condition condition c = .ok test)
    (hx : thenValue.Gives Q x) (hy : elseValue.Gives Q y) :
    Q role (.conditional note condition thenValue elseValue)
      (.conditional test (x.assignTo ty).tree (y.assignTo ty).tree)
  instanceOf {role : Role} {note : Note} {operand : Expr} {target : Ty} {x : Operand}
    (hrole : role.Reads) (hx : operand.Gives Q x) (hprim : ¬x.ty.isPrim) :
    Q role (.instanceOf note operand target) (.instanceOf x.tree target)
  cast {role : Role} {note : Note} {target : Ty} {operand : Expr} {x : Operand}
    (hrole : role.Reads) (hx : operand.Gives Q x) :
    Q role (.cast note target operand) (x.convertTo target).tree
  index {role : Role} {note : Note} {array index : Expr} {a x : Operand} {position : Tree}
    (hrole : role.Permits (.element a.tree position)) (ha : array.Gives Q a)
    (harray : a.ty.isArray) (hx : index.Gives Q x) (hposition : v.intValue index x = .ok position) :
    Q role (.index note array index) (.element a.tree position)
  call {role : Role} {note : Note} {qualifier : Option Expr} {name : String} {m : MethodDecl}
    {args : List Expr} {receiver : Option Tree} {object : Tree} {operands : List Operand}
    {trees : List Tree} (hrole : role.Reads)
    (hreceiver : Fronts Q m.modifiers.isStatic qualifier receiver)
    (hobject : v.methodReceiver m receiver note.excerpt = .ok object)
    (hargs : args.Forall₂ (Expr.Gives Q) operands)
    (htrees : v.hierarchy.arguments m operands note.excerpt = .ok trees) :
    Q role (.call note qualifier name (some m) args) (.call object m.ref trees)
  newInstance {role : Role} {note : Note} {c : ClassId} {constructor : MethodDecl}
    {outer : Option Expr} {args : List Expr} {enclosing : List Tree} {operands : List Operand}
    {trees : List Tree} (hrole : role.Reads)
    (henclosing : v.Encloses Q note.excerpt (v.outerOfInner? c) outer enclosing)
    (hargs : args.Forall₂ (Expr.Gives Q) operands)
    (htrees : v.hierarchy.arguments constructor operands note.excerpt = .ok trees) :
    Q role (.newInstance note c constructor outer args false)
      (.newInstance c constructor.ref (enclosing ++ trees))
  filledArray {role : Role} {note : Note} {dims : List Expr} {init : Expr} {ty : Ty} {t : Tree}
    (hrole : role.Reads) (hty : v.createdTy note dims.length = .ok ty)
    (hinit : Q (.initializer ty) init t) : Q role (.newArray note dims (some init)) t
  emptyArray {role : Role} {note : Note} {dim : Expr} {rest : List Expr} {ty : Ty} {x : Operand}
    {length : Tree} (hrole : role.Reads) (hty : v.createdTy note (rest.length + 1) = .ok ty)
    (hx : dim.Gives Q x) (hlength : v.intValue dim x = .ok length) :
    Q role (.newArray note (dim :: rest) none) (.newArray ty (some length) none)
  braces {role : Role} {note : Note} {elements : List Expr} {ty component : Ty} {trees : List Tree}
    (hrole : role = .initializer ty ∨ role.Reads ∧ note.ty? = some ty)
    (hcomponent : ty.component? = some component)
    (htrees : elements.Forall₂ (Expr.Stores Q component) trees) :
    Q role (.braces note elements) (.newArray ty none (some trees))

theorem Fronts.forall_mem {P : Tree → Prop} {isStatic : Bool} {qualifier : Option Expr}
    {receiver : Option Tree} (h : Fronts Q isStatic qualifier receiver)
    (hP : ∀ q ∈ qualifier, ∀ t, Q .receiver q t → P t) : ∀ t ∈ receiver, P t := by
  cases h with
  | unneeded => nofun
  | absent => nofun
  | given ht =>
      rintro _ ⟨⟩
      exact hP _ rfl _ ht

theorem View.Encloses.forall_mem {v : View} {P : Tree → Prop} {excerpt : Excerpt}
    {outerClass : Option ClassId} {outer : Option Expr} {enclosing : List Tree}
    (h : v.Encloses Q excerpt outerClass outer enclosing)
    (hgiven : ∀ q ∈ outer, ∀ t, Q .value q t → P t)
    (hnearest : ∀ c t, v.thisFor c excerpt = .ok t → P t) : ∀ t ∈ enclosing, P t := by
  cases h with
  | unneeded => nofun
  | given ht => exact List.forall_mem_singleton.2 (hgiven _ rfl _ ht)
  | nearest ht => exact List.forall_mem_singleton.2 (hnearest _ _ ht)

theorem Expr.operand_gives {e : Expr} {outcome : Except Fault Tree}
    (hF : ∀ cause : Cause, cause.ofExpr → F ⟨cause, e.excerpt⟩) (h : Meets F (Q .value e) outcome) :
    Meets F (e.Gives Q) (e.operand outcome) :=
  (e.operand_meets hF h).imp fun _ hx => ⟨hx.1, hx.2⟩

theorem Expr.stored_stores {e : Expr} {ty : Ty} {outcome : Except Fault Tree}
    (hF : ∀ cause : Cause, cause.ofExpr → F ⟨cause, e.excerpt⟩)
    (h : Meets F (Q (e.storedRole ty) e) outcome) :
    Meets F (e.Stores Q ty) (e.stored ty outcome) := by
  unfold storedRole at h
  unfold stored
  split
  next hbraces =>
    rw [if_pos hbraces] at h
    exact h.imp fun _ => .braces
  next hbraces =>
    rw [if_neg hbraces] at h
    exact (e.operand_gives hF h).map fun _ => .value

theorem Tree.every_any (t : Tree) : t.Every fun _ => True := fun _ _ => trivial

namespace View

variable {v : View}

/-- Every refusal that the node can bring about satisfies `F`. -/
abbrev Refuses (v : View) (F : Fault → Prop) : Expr → Prop := v.Covers F fun _ => True

namespace Rules

mutual

/-- A relation that is closed under the rules holds of what an expression compiles to. -/
theorem lower (rules : v.Rules Q) : ∀ (role : Role) (e : Expr), e.Every (v.Refuses F) →
    Meets F (Q role e) (v.lower role e)
  | role, .literal note value, he => by
      rw [View.lower]
      have hown := (Expr.every_iff.1 he).1
      exact role.plain_meets hown.own rules.literal
  | role, .name note none name decl, he => by
      rw [View.lower]
      have hown := (Expr.every_iff.1 he).1
      refine role.place_meets hown.own ?_
      exact (simpleName_meets hown).eq_ok.imp fun t ht hrole => rules.simpleName hrole ht
  | role, .name note (some q) name decl, he => by
      rw [View.lower]
      obtain ⟨hown, hchildren⟩ := Expr.every_iff.1 he
      have hq := hchildren q (by simp [Expr.children])
      refine role.place_meets hown.own ?_
      split
      next hlength =>
        refine (lower rules .value q hq).with_eq.map fun array harray hrole => ?_
        exact rules.length hrole hlength harray.1 harray.2
      next hlength =>
        have hobject := lower rules .receiver q hq
        refine (qualifiedName_meets _ hown (hobject.imp fun t _ => t.every_any)).eq_ok.imp ?_
        intro t ht hrole
        exact rules.qualifiedName hrole (by simpa using hlength) hobject.yields ht
  | role, .thisRef note qualifier, he => by
      rw [View.lower]
      have hown := (Expr.every_iff.1 he).1
      refine role.plain_meets hown.own fun hrole => ?_
      exact (v.instanceDepth_meets qualifier hown.own).eq_ok.map fun depth => rules.thisRef hrole
  | role, .superRef note qualifier, he => by
      have hown := (Expr.every_iff.1 he).1
      cases role with
      | receiver =>
          rw [View.lower]
          exact (v.instanceDepth_meets qualifier hown.own).eq_ok.map fun depth => rules.superRef
      | _ =>
          rw [View.lower]
          · exact Role.plain_meets _ hown.own fun _ => hown.own _ rfl
          · simp
  | role, .classLiteral note ty, he => by
      rw [View.lower]
      have hown := (Expr.every_iff.1 he).1
      exact role.plain_meets hown.own rules.classLiteral
  | role, .paren note inner, he => by
      obtain ⟨hown, hchildren⟩ := Expr.every_iff.1 he
      have hinner := hchildren inner (by simp [Expr.children])
      cases role with
      | initializer ty =>
          rw [View.lower]
          exact hown.own _ rfl
      | _ =>
          rw [View.lower]
          · exact (lower rules _ inner hinner).imp fun t => rules.paren nofun
          · simp
  | role, .chain note [] ops, he => by
      rw [View.lower]
      have hown := (Expr.every_iff.1 he).1
      exact role.plain_meets hown.own fun _ => hown.own _ rfl
  | role, .chain note (first :: rest) ops, he => by
      rw [View.lower]
      obtain ⟨hown, hchildren⟩ := Expr.every_iff.1 he
      have hfirst := hchildren first (by simp [Expr.children])
      have hrest : ∀ x ∈ rest, x.Every (v.Refuses F) :=
        fun x hx => hchildren x (by simp [Expr.children, hx])
      refine role.plain_meets hown.own fun hrole => ?_
      split
      · exact hown.own _ rfl
      next hlength =>
        apply (first.operand_gives (covers_own hfirst) (lower rules .value first hfirst)).bind
        intro left hleft
        apply (lowerRest rules _ left rest ops (Decidable.not_not.1 hlength) hrest
          fun x hx op l r => hown.refuses _ (.operands hx op l r)).bind
        intro whole hwhole
        exact rules.chain hrole hleft hwhole
  | role, .unary note op operand, he => by
      rw [View.lower]
      obtain ⟨hown, hchildren⟩ := Expr.every_iff.1 he
      have hoperand := hchildren operand (by simp [Expr.children])
      refine role.plain_meets hown.own fun hrole => ?_
      apply (operand.operand_gives (covers_own hoperand) (lower rules .value operand hoperand)).bind
      intro x hx
      exact (applyUnary_meets hown (Tree.every_any _)).eq_ok.imp fun t => rules.unary hrole hx
  | role, .step note op form operand, he => by
      rw [View.lower]
      obtain ⟨hown, hchildren⟩ := Expr.every_iff.1 he
      have hoperand := hchildren operand (by simp [Expr.children])
      refine role.plain_meets hown.own fun hrole => ?_
      apply (Note.needTy_meets (covers_own hoperand)).bind
      intro ty hty
      unfold stepPlace
      split
      next kind hkind =>
        exact (lower rules .target operand hoperand).map fun place => rules.step hrole hty hkind
      · exact hown.own _ rfl
  | role, .assign note (.compound op) target value, he => by
      rw [View.lower]
      have hown := (Expr.every_iff.1 he).1
      exact role.plain_meets hown.own fun _ => hown.own _ rfl
  | role, .assign note .plain target value, he => by
      rw [View.lower]
      obtain ⟨hown, hchildren⟩ := Expr.every_iff.1 he
      have htarget := hchildren target (by simp [Expr.children])
      have hvalue := hchildren value (by simp [Expr.children])
      refine role.plain_meets hown.own fun hrole => ?_
      apply (Note.needTy_meets (covers_own htarget)).bind
      intro ty hty
      apply (lower rules .target target htarget).bind
      intro place hplace
      apply (value.operand_gives (covers_own hvalue) (lower rules .value value hvalue)).bind
      intro x hx
      exact rules.assign hrole hty hplace hx
  | role, .conditional note condition thenValue elseValue, he => by
      rw [View.lower]
      obtain ⟨hown, hchildren⟩ := Expr.every_iff.1 he
      have hcondition := hchildren condition (by simp [Expr.children])
      have hthen := hchildren thenValue (by simp [Expr.children])
      have helse := hchildren elseValue (by simp [Expr.children])
      refine role.plain_meets hown.own fun hrole => ?_
      apply (Note.needTy_meets hown.own).bind
      intro ty hty
      apply (condition.operand_gives (covers_own hcondition)
        (lower rules .value condition hcondition)).bind
      intro c hc
      apply (condition_meets hcondition (Tree.every_any _)).eq_ok.bind
      intro test htest
      apply (thenValue.operand_gives (covers_own hthen) (lower rules .value thenValue hthen)).bind
      intro x hx
      apply (elseValue.operand_gives (covers_own helse) (lower rules .value elseValue helse)).bind
      intro y hy
      exact rules.conditional hrole hty hc htest hx hy
  | role, .instanceOf note operand target, he => by
      rw [View.lower]
      obtain ⟨hown, hchildren⟩ := Expr.every_iff.1 he
      have hoperand := hchildren operand (by simp [Expr.children])
      refine role.plain_meets hown.own fun hrole => ?_
      apply (operand.operand_gives (covers_own hoperand) (lower rules .value operand hoperand)).bind
      intro x hx
      split
      · exact hown.own _ rfl
      next hprim => exact rules.instanceOf hrole hx hprim
  | role, .cast note target operand, he => by
      rw [View.lower]
      obtain ⟨hown, hchildren⟩ := Expr.every_iff.1 he
      have hoperand := hchildren operand (by simp [Expr.children])
      refine role.plain_meets hown.own fun hrole => ?_
      exact (operand.operand_gives (covers_own hoperand)
        (lower rules .value operand hoperand)).bind fun x hx => rules.cast hrole hx
  | role, .index note array index, he => by
      rw [View.lower]
      obtain ⟨hown, hchildren⟩ := Expr.every_iff.1 he
      have harray := hchildren array (by simp [Expr.children])
      have hindex := hchildren index (by simp [Expr.children])
      refine role.place_meets hown.own ?_
      apply (Note.needTy_meets (covers_own harray)).bind
      intro ty hty
      split
      · exact hown.own _ rfl
      next hisArray =>
        apply (lower rules .value array harray).bind
        intro arrayTree htree
        apply (index.operand_gives (covers_own hindex) (lower rules .value index hindex)).bind
        intro x hx
        apply (intValue_meets hindex (Tree.every_any _)).eq_ok.bind
        intro position hposition hrole
        exact rules.index (a := ⟨arrayTree, ty⟩) hrole ⟨htree, hty⟩ (by simpa using hisArray) hx
          hposition
  | role, .call note qualifier name none args, he => by
      rw [View.lower]
      have hown := (Expr.every_iff.1 he).1
      exact role.plain_meets hown.own fun _ => hown.own _ rfl
  | role, .call note qualifier name (some m) args, he => by
      rw [View.lower]
      obtain ⟨hown, hchildren⟩ := Expr.every_iff.1 he
      refine role.plain_meets hown.own fun hrole => ?_
      apply (lowerReceiver rules m.modifiers.isStatic qualifier fun q hq =>
        hchildren q (List.mem_append_left _ (Option.mem_toList.2 hq))).bind
      intro receiver hreceiver
      apply (memberOwner_meets hown m.declaring m.modifiers.isStatic
        fun object _ => object.every_any).eq_ok.bind
      intro object hobject
      apply (lowerOperands rules args fun x hx => hchildren x (by simp [Expr.children, hx])).bind
      intro operands hoperands
      apply (v.hierarchy.arguments_meets m hown.own (fun x _ y _ => y.tree.every_any)
        fun _ _ _ _ => Tree.every_any _).eq_ok.bind
      intro trees htrees
      exact rules.call hrole hreceiver hobject hoperands htrees
  | role, .newInstance note c constructor outer args anonymous, he => by
      rw [View.lower]
      obtain ⟨hown, hchildren⟩ := Expr.every_iff.1 he
      refine role.plain_meets hown.own fun hrole => ?_
      cases anonymous with
      | true => exact hown.own _ rfl
      | false =>
          apply (lowerEnclosing rules hown _ outer fun q hq =>
            hchildren q (List.mem_append_left _ (Option.mem_toList.2 hq))).bind
          intro enclosing henclosing
          apply (lowerOperands rules args fun x hx =>
            hchildren x (by simp [Expr.children, hx])).bind
          intro operands hoperands
          apply (v.hierarchy.arguments_meets constructor hown.own (fun x _ y _ => y.tree.every_any)
            fun _ _ _ _ => Tree.every_any _).eq_ok.bind
          intro trees htrees
          exact rules.newInstance hrole henclosing hoperands htrees
  | role, .newArray note dims (some init), he => by
      rw [View.lower]
      obtain ⟨hown, hchildren⟩ := Expr.every_iff.1 he
      have hinit := hchildren init (by simp [Expr.children])
      refine role.plain_meets hown.own fun hrole => ?_
      apply (createdTy_meets hown.own).eq_ok.bind
      intro ty hty
      exact (lower rules (.initializer ty) init hinit).imp fun t => rules.filledArray hrole hty
  | role, .newArray note [] none, he => by
      rw [View.lower]
      have hown := (Expr.every_iff.1 he).1
      refine role.plain_meets hown.own fun _ => ?_
      exact (createdTy_meets hown.own).bind fun _ _ => hown.own _ rfl
  | role, .newArray note (dim :: rest) none, he => by
      rw [View.lower]
      obtain ⟨hown, hchildren⟩ := Expr.every_iff.1 he
      have hdim := hchildren dim (by simp [Expr.children])
      refine role.plain_meets hown.own fun hrole => ?_
      apply (createdTy_meets hown.own).eq_ok.bind
      intro ty hty
      apply (dim.operand_gives (covers_own hdim) (lower rules .value dim hdim)).bind
      intro x hx
      apply (intValue_meets hdim (Tree.every_any _)).eq_ok.bind
      intro length hlength
      exact rules.emptyArray hrole hty hx hlength
  | role, .braces note elements, he => by
      obtain ⟨hown, hchildren⟩ := Expr.every_iff.1 he
      have harray (ty : Ty) (hrole : role = .initializer ty ∨ role.Reads ∧ note.ty? = some ty) :
          Meets F (Q role (.braces note elements))
            (v.arrayOf note ty fun component => v.lowerElements component elements) := by
        unfold arrayOf
        split
        next component hcomponent =>
          exact (lowerElements rules component elements hchildren).map fun trees =>
            rules.braces hrole hcomponent
        · exact hown.own _ rfl
      cases role with
      | target =>
          rw [View.lower]
          exact hown.own _ rfl
      | initializer ty =>
          rw [View.lower]
          exact harray ty (.inl rfl)
      | value =>
          rw [View.lower]
          exact (Note.needTy_meets hown.own).bind fun ty hty => harray ty (.inr ⟨.value, hty⟩)
      | receiver =>
          rw [View.lower]
          exact (Note.needTy_meets hown.own).bind fun ty hty => harray ty (.inr ⟨.receiver, hty⟩)
  | role, .lambda note, he => by
      rw [View.lower]
      have hown := (Expr.every_iff.1 he).1
      exact role.plain_meets hown.own fun _ => hown.own _ rfl
  | role, .methodRef note, he => by
      rw [View.lower]
      have hown := (Expr.every_iff.1 he).1
      exact role.plain_meets hown.own fun _ => hown.own _ rfl

theorem lowerReceiver (rules : v.Rules Q) : ∀ (isStatic : Bool) (qualifier : Option Expr),
    (∀ q ∈ qualifier, q.Every (v.Refuses F)) →
    Meets F (Fronts Q isStatic qualifier) (v.lowerReceiver (!isStatic) qualifier)
  | isStatic, none, _ => by
      rw [View.lowerReceiver]
      exact .absent
  | true, some q, hq => by
      rw [View.lowerReceiver]
      exact .unneeded
  | false, some q, hq => by
      rw [View.lowerReceiver]
      exact (lower rules .receiver q (hq q rfl)).map fun t => .given

theorem lowerEnclosing (rules : v.Rules Q) {e : Expr} (he : v.Refuses F e) :
    ∀ (outerClass : Option ClassId) (outer : Option Expr),
    (∀ q ∈ outer, q.Every (v.Refuses F)) →
    Meets F (v.Encloses Q e.excerpt outerClass outer) (v.lowerEnclosing e.note outerClass outer)
  | some c, some q, hq => by
      rw [View.lowerEnclosing]
      exact (lower rules .value q (hq q rfl)).map fun t => .given
  | none, some q, hq => by
      rw [View.lowerEnclosing]
      exact .unneeded
  | some c, none, _ => by
      rw [View.lowerEnclosing]
      exact (thisFor_meets he c).eq_ok.map fun t => .nearest
  | none, none, _ => by
      rw [View.lowerEnclosing]
      exact .unneeded

theorem lowerOperands (rules : v.Rules Q) : ∀ exprs : List Expr,
    (∀ e ∈ exprs, e.Every (v.Refuses F)) →
    Meets F (exprs.Forall₂ (Expr.Gives Q)) (v.lowerOperands exprs)
  | [], _ => by
      rw [View.lowerOperands]
      exact .nil
  | e :: rest, hexprs => by
      rw [View.lowerOperands]
      obtain ⟨he, hrest⟩ := List.forall_mem_cons.1 hexprs
      apply (e.operand_gives (covers_own he) (lower rules .value e he)).bind
      intro x hx
      apply (lowerOperands rules rest hrest).bind
      intro xs hxs
      exact .cons hx hxs

theorem lowerElements (rules : v.Rules Q) : ∀ (component : Ty) (exprs : List Expr),
    (∀ e ∈ exprs, e.Every (v.Refuses F)) →
    Meets F (exprs.Forall₂ (Expr.Stores Q component)) (v.lowerElements component exprs)
  | component, [], _ => by
      rw [View.lowerElements]
      exact .nil
  | component, e :: rest, hexprs => by
      rw [View.lowerElements]
      obtain ⟨he, hrest⟩ := List.forall_mem_cons.1 hexprs
      apply (e.stored_stores (covers_own he) (lower rules (e.storedRole component) e he)).bind
      intro tree htree
      apply (lowerElements rules component rest hrest).bind
      intro trees htrees
      exact .cons htree htrees

theorem lowerRest (rules : v.Rules Q) : ∀ (start : Span) (left : Operand) (rest : List Expr)
    (ops : List BinaryOp), rest.length = ops.length → (∀ e ∈ rest, e.Every (v.Refuses F)) →
    (∀ e ∈ rest, ∀ op l r,
      F ⟨.incompatibleOperands op l r, e.excerpt.text, start.through e.excerpt.span⟩) →
    Meets F (v.Chains Q start left rest ops) (v.lowerRest start left rest ops)
  | start, left, [], [], _, _, _ => by
      rw [View.lowerRest]
      · exact .nil
      · simp
  | start, left, e :: rest, op :: ops, hlength, hexprs, hspan => by
      rw [View.lowerRest]
      obtain ⟨he, hrest⟩ := List.forall_mem_cons.1 hexprs
      obtain ⟨hblame, hspan⟩ := List.forall_mem_cons.1 hspan
      apply (e.operand_gives (covers_own he) (lower rules .value e he)).bind
      intro right hright
      apply (combine_meets (Expr.every_iff.1 he).1 (hblame op) (Tree.every_any _)
        (Tree.every_any _)).eq_ok.bind
      intro next hnext
      refine (lowerRest rules start next rest ops (Nat.succ.inj hlength) hrest hspan).imp ?_
      intro whole hwhole
      exact .cons hright hnext hwhole

end

/-- The rules alone, when nothing is asked of refusals. -/
theorem yields (rules : v.Rules Q) (role : Role) (e : Expr) : Yields (Q role e) (v.lower role e) :=
  rules.lower role e fun _ _ => ⟨fun _ _ => trivial, fun _ _ => trivial⟩

theorem operand (rules : v.Rules Q) (e : Expr) : Yields (e.Gives Q) (v.lowerOperand e) :=
  e.operand_gives (fun _ _ => trivial) (rules.yields .value e)

theorem initial (rules : v.Rules Q) (ty : Ty) (e : Expr) :
    Yields (e.Stores Q ty) (v.lowerInitial ty e) :=
  e.stored_stores (fun _ _ => trivial) (rules.yields (e.storedRole ty) e)

end Rules

section Brings

variable {p : Tree → Prop}

/-- The tree is made of nodes that nodes of the expression bring in. -/
def Brings (v : View) (p : Tree → Prop) (_ : Role) (e : Expr) (t : Tree) : Prop :=
  e.Every (v.Covers (fun _ => True) p) → t.Every p

theorem Brings.converts {e : Expr} {x y : Operand} (hx : e.Gives (v.Brings p) x)
    (he : e.Every (v.Covers (fun _ => True) p)) (hxy : x.Converts y) : y.tree.Every p :=
  (Expr.every_iff.1 he).1.converts (hx.tree he) hxy

theorem Brings.stores {e : Expr} {ty : Ty} {t : Tree} (ht : e.Stores (v.Brings p) ty t)
    (he : e.Every (v.Covers (fun _ => True) p)) : t.Every p := by
  cases ht with
  | braces ht => exact ht he
  | value hx => exact Brings.converts hx he (Operand.Converts.refl.assignTo ty)

theorem Brings.chains {start : Span} {left whole : Operand} {rest : List Expr}
    {ops : List BinaryOp} (h : v.Chains (v.Brings p) start left rest ops whole)
    (hrest : ∀ e ∈ rest, e.Every (v.Covers (fun _ => True) p)) (hleft : left.tree.Every p) :
    whole.tree.Every p := by
  induction h with
  | nil => exact hleft
  | cons hright hnext _ ih =>
      obtain ⟨he, hrest⟩ := List.forall_mem_cons.1 hrest
      have hcombined := Yields.of_ok
        (combine_meets (Expr.every_iff.1 he).1 (fun _ _ => trivial) hleft (hright.tree he)) hnext
      exact ih hrest hcombined

theorem Brings.arguments {e : Expr} (hown : v.Covers (fun _ => True) p e) {m : MethodDecl}
    {args : List Expr} {operands : List Operand} {trees : List Tree}
    (hargs : args.Forall₂ (Expr.Gives (v.Brings p)) operands)
    (hevery : ∀ x ∈ args, x.Every (v.Covers (fun _ => True) p))
    (htrees : v.hierarchy.arguments m operands e.excerpt = .ok trees) :
    ∀ t ∈ trees, t.Every p := by
  have hconverts : ∀ x ∈ operands, ∀ y, x.Converts y → y.tree.Every p :=
    forall_mem_right hargs fun e he x hx y hxy => Brings.converts hx (hevery e he) hxy
  refine Yields.of_ok (v.hierarchy.arguments_meets m (fun _ _ => trivial) hconverts ?_) htrees
  intro ty elements _ helements
  exact hown.every trivial (by simpa [Tree.children] using helements)

/-- Each form of expression brings in its own nodes beside those of its parts. -/
theorem rules_brings (v : View) (p : Tree → Prop) : v.Rules (v.Brings p) where
  literal _ he := (Expr.every_iff.1 he).1.every trivial (by simp [Tree.children])
  simpleName _ ht he := (simpleName_meets (Expr.every_iff.1 he).1).of_ok ht
  length _ hlength hq harray he := by
    obtain ⟨hown, hchildren⟩ := Expr.every_iff.1 he
    obtain rfl := eq_length_of_isLength hlength
    refine hown.every (.inr ⟨_, _, _, rfl, hlength, harray⟩) ?_
    simpa [Tree.children] using hq (hchildren _ (by simp [Expr.children]))
  qualifiedName _ _ hq ht he := by
    obtain ⟨hown, hchildren⟩ := Expr.every_iff.1 he
    have hobject := hq.imp fun _ h => h (hchildren _ (by simp [Expr.children]))
    exact (qualifiedName_meets _ hown hobject).of_ok ht
  thisRef _ hdepth he := by
    have hreaches := Yields.of_ok (v.instanceDepth_meets _ fun _ _ => trivial) hdepth
    exact (Expr.every_iff.1 he).1.every_thisAt hreaches
  superRef hdepth he := by
    have hreaches := Yields.of_ok (v.instanceDepth_meets _ fun _ _ => trivial) hdepth
    exact (Expr.every_iff.1 he).1.every hreaches (by simp [Tree.children])
  classLiteral _ he := (Expr.every_iff.1 he).1.every trivial (by simp [Tree.children])
  paren _ hinner he := hinner ((Expr.every_iff.1 he).2 _ (by simp [Expr.children]))
  chain _ hfirst hrest he := by
    have hchildren := (Expr.every_iff.1 he).2
    refine Brings.chains hrest (fun x hx => hchildren x (by simp [Expr.children, hx])) ?_
    exact hfirst.tree (hchildren _ (by simp [Expr.children]))
  unary _ hx ht he := by
    obtain ⟨hown, hchildren⟩ := Expr.every_iff.1 he
    exact (applyUnary_meets hown (hx.tree (hchildren _ (by simp [Expr.children])))).of_ok ht
  step _ _ hkind hplace he := by
    obtain ⟨hown, hchildren⟩ := Expr.every_iff.1 he
    exact hown.stepTree _ _ (Option.filter_eq_some_iff.1 hkind).1
      (hplace (hchildren _ (by simp [Expr.children])))
  assign _ _ hplace hx he := by
    obtain ⟨hown, hchildren⟩ := Expr.every_iff.1 he
    simp only [Expr.children, List.forall_mem_cons] at hchildren
    obtain ⟨htarget, hvalue, -⟩ := hchildren
    refine hown.every trivial ?_
    simpa [Tree.children] using ⟨hplace htarget, Brings.converts hx hvalue (.assignTo .refl _)⟩
  conditional _ _ hc htest hx hy he := by
    obtain ⟨hown, hchildren⟩ := Expr.every_iff.1 he
    simp only [Expr.children, List.forall_mem_cons] at hchildren
    obtain ⟨hcondition, hthen, helse, -⟩ := hchildren
    refine hown.every trivial ?_
    simpa [Tree.children] using ⟨(condition_meets hcondition (hc.tree hcondition)).of_ok htest,
      Brings.converts hx hthen (.assignTo .refl _), Brings.converts hy helse (.assignTo .refl _)⟩
  instanceOf _ hx _ he := by
    obtain ⟨hown, hchildren⟩ := Expr.every_iff.1 he
    refine hown.every trivial ?_
    simpa [Tree.children] using hx.tree (hchildren _ (by simp [Expr.children]))
  cast _ hx he :=
    Brings.converts hx ((Expr.every_iff.1 he).2 _ (by simp [Expr.children])) (.convertTo .refl _)
  index _ ha _ hx hposition he := by
    obtain ⟨hown, hchildren⟩ := Expr.every_iff.1 he
    simp only [Expr.children, List.forall_mem_cons] at hchildren
    obtain ⟨harray, hindex, -⟩ := hchildren
    refine hown.every trivial ?_
    simpa [Tree.children] using
      ⟨ha.tree harray, (intValue_meets hindex (hx.tree hindex)).of_ok hposition⟩
  call _ hreceiver hobject hargs htrees he := by
    obtain ⟨hown, hchildren⟩ := Expr.every_iff.1 he
    have hfront := hreceiver.forall_mem fun q hq t ht =>
      ht (hchildren q (List.mem_append_left _ (Option.mem_toList.2 hq)))
    refine hown.every trivial ?_
    simpa [Tree.children] using ⟨(memberOwner_meets hown _ _ hfront).of_ok hobject,
      Brings.arguments hown hargs (fun x hx => hchildren x (by simp [Expr.children, hx])) htrees⟩
  newInstance _ henclosing hargs htrees he := by
    obtain ⟨hown, hchildren⟩ := Expr.every_iff.1 he
    have hfront := henclosing.forall_mem
      (fun q hq t ht => ht (hchildren q (List.mem_append_left _ (Option.mem_toList.2 hq))))
      fun c t ht => (thisFor_meets hown c).of_ok ht
    have htrees := Brings.arguments hown hargs
      (fun x hx => hchildren x (by simp [Expr.children, hx])) htrees
    exact hown.every trivial fun t ht => (List.mem_append.1 ht).elim (hfront t) (htrees t)
  filledArray _ _ hinit he := hinit ((Expr.every_iff.1 he).2 _ (by simp [Expr.children]))
  emptyArray _ _ hx hlength he := by
    obtain ⟨hown, hchildren⟩ := Expr.every_iff.1 he
    have hdim := hchildren _ (List.mem_append_left _ List.mem_cons_self)
    refine hown.every trivial ?_
    simpa [Tree.children] using (intValue_meets hdim (hx.tree hdim)).of_ok hlength
  braces _ _ htrees he := by
    obtain ⟨hown, hchildren⟩ := Expr.every_iff.1 he
    refine hown.every trivial ?_
    simpa [Tree.children] using
      forall_mem_right htrees fun e he t ht => Brings.stores ht (hchildren e he)

end Brings

variable {p : Tree → Prop}

theorem Covers.split {e : Expr} (h : v.Covers F p e) :
    v.Refuses F e ∧ v.Covers (fun _ => True) p e :=
  ⟨⟨h.refuses, fun _ _ => trivial⟩, ⟨fun _ _ => trivial, h.makes⟩⟩

/-- Each node of an expression brings its own nodes into the compiled tree, or refuses. -/
theorem lower_meets (role : Role) (e : Expr) (he : e.Every (v.Covers F p)) :
    Meets F (Tree.Every p) (v.lower role e) :=
  ((v.rules_brings p).lower role e fun n hn => (he n hn).split.1).imp fun _ ht =>
    ht fun n hn => (he n hn).split.2

theorem lowerCondition_meets {e : Expr} (he : e.Every (v.Covers F p)) :
    Meets F (Tree.Every p) (v.lowerCondition e) :=
  (e.operand_meets (covers_own he) (lower_meets .value e he)).bind fun _ hx =>
    condition_meets he hx.1

theorem lowerInitial_meets {e : Expr} (ty : Ty) (he : e.Every (v.Covers F p)) :
    Meets F (Tree.Every p) (v.lowerInitial ty e) := by
  have hlower := (v.rules_brings p).lower (e.storedRole ty) e fun n hn => (he n hn).split.1
  refine (e.stored_stores (covers_own he) hlower).imp fun t ht => ?_
  exact Brings.stores ht fun n hn => (he n hn).split.2

/-- Some node of the expression brings the refusal about. -/
def Blames (v : View) (e : Expr) (fault : Fault) : Prop := ∃ n ∈ e.nodes, v.Raises n fault

theorem every_covers_blames (v : View) (e : Expr) : e.Every (v.Covers (v.Blames e) v.Admits) :=
  fun n hn => ⟨fun _ hraises => ⟨n, hn, hraises⟩, fun _ => Makes.admits⟩

theorem lower_blames (v : View) (role : Role) (e : Expr) :
    Meets (v.Blames e) (Tree.Every v.Admits) (v.lower role e) :=
  lower_meets role e (v.every_covers_blames e)

theorem lowerCondition_blames (v : View) (e : Expr) :
    Meets (v.Blames e) (Tree.Every v.Admits) (v.lowerCondition e) :=
  lowerCondition_meets (v.every_covers_blames e)

theorem lowerInitial_blames (v : View) (ty : Ty) (e : Expr) :
    Meets (v.Blames e) (Tree.Every v.Admits) (v.lowerInitial ty e) :=
  lowerInitial_meets ty (v.every_covers_blames e)

theorem lowerValues_blames (v : View) (exprs : List Expr) :
    Meets (fun fault => ∃ e ∈ exprs, v.Blames e fault) (fun trees => ∀ t ∈ trees, t.Every v.Admits)
      (v.lowerValues exprs) := by
  induction exprs with
  | nil =>
      intro t ht
      cases ht
  | cons e rest ih =>
      rw [lowerValues]
      apply ((v.lower_blames .value e).mono (fun fault h => ⟨e, List.mem_cons_self, h⟩)
        fun _ => id).bind
      intro t ht
      refine (ih.mono (fun fault h => ?_) fun _ => id).bind fun trees htrees => ?_
      · obtain ⟨x, hx, hblames⟩ := h
        exact ⟨x, List.mem_cons_of_mem _ hx, hblames⟩
      · exact List.forall_mem_cons.2 ⟨ht, htrees⟩

end View

end Breakpoint
