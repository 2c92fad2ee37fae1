import Breakpoint.Proofs.Grammar
import Breakpoint.Proofs.Statement

/-!
Compiled trees are grammatical. An expression compiles to a tree for the spot that its role stands
for, and a statement to one for the place where the statement stands. Conversions wrap values in
values, and the arguments of a call come out as many as the method has parameters, whether or not
some of them are collected in an array.
-/

namespace Breakpoint

variable {h : Hierarchy} {t : Tree}

namespace Spot

variable {spot : Spot}

theorem takes_of_spots (haccepts : spot.accepts t.form) (hcomplete : t.Complete h)
    (hspots : ∀ p ∈ t.spots, p.1.Takes h p.2) : spot.Takes h t :=
  ⟨haccepts, Tree.proper_iff.2 ⟨hcomplete, hspots⟩⟩

/-- A value may stand wherever values are accepted. -/
theorem Takes.mono (ht : Spot.operand.Takes h t) (haccepts : spot.accepts .value) :
    spot.Takes h t := by
  refine ⟨?_, ht.proper⟩
  rw [eq_of_beq ht.accepts]
  exact haccepts

theorem Takes.converts {x y : Operand} (hx : Spot.operand.Takes h x.tree) (hxy : x.Converts y) :
    Spot.operand.Takes h y.tree := by
  induction hxy with
  | refl => exact hx
  | cast _ _ ih => exact takes_of_spots rfl trivial (by simpa [Tree.spots] using ih)
  | box _ _ ih => exact takes_of_spots rfl trivial (by simpa [Operand.boxAs, Tree.spots] using ih)
  | unbox _ _ ih =>
      exact takes_of_spots rfl trivial (by simpa [Operand.unboxAs, Tree.spots] using ih)

end Spot

open Spot (takes_of_spots)

theorem takes_array {ty : Ty} {elements : List Tree}
    (helements : ∀ t ∈ elements, Spot.operand.Takes h t) :
    Spot.operand.Takes h (.newArray ty none (some elements)) :=
  takes_of_spots rfl nofun (by simpa [Tree.spots] using helements)

section Access

variable (s : Site) {excerpt : Excerpt}

theorem Site.thisFor_takes (target : ClassId) :
    Yields (Spot.operand.Takes h) (s.thisFor target excerpt) :=
  (yields_any _).map fun _ _ => takes_of_spots rfl trivial (by simp [Tree.spots])

theorem Site.memberOwner_takes (declaring : ClassId) (isStatic : Bool) {receiver : Option Tree}
    (hreceiver : ∀ object ∈ receiver, Spot.object.Takes h object) :
    Yields (fun object => Spot.object.Takes h object ∧
        (isStatic → object = .typeRef (.ofClass declaring)))
      (s.memberOwner declaring isStatic receiver excerpt) := by
  unfold memberOwner
  split
  · exact ⟨takes_of_spots rfl trivial (by simp [Tree.spots]), fun _ => rfl⟩
  next hstatic =>
    cases receiver with
    | some object => exact ⟨hreceiver object rfl, fun h => absurd h hstatic⟩
    | none =>
        exact (s.thisFor_takes declaring).imp fun object hobject =>
          ⟨hobject.mono rfl, fun h => absurd h hstatic⟩

theorem Site.fieldAccess_takes (d : FieldDecl) {receiver : Option Tree}
    (hreceiver : ∀ object ∈ receiver, Spot.object.Takes h object) :
    Yields (Spot.operand.Takes h) (s.fieldAccess d receiver excerpt) := by
  refine (s.memberOwner_takes d.declaring _ hreceiver).map fun object hobject => ?_
  exact takes_of_spots rfl trivial (by simpa [Tree.spots] using hobject.1)

theorem Site.capturedLocal_takes (d : LocalDecl) (declaring : ClassId) :
    Yields (Spot.operand.Takes h) (s.capturedLocal d declaring excerpt) := by
  have hthis (depth : Nat) : Spot.object.Takes h (.thisAt depth) :=
    takes_of_spots rfl trivial (by simp [Tree.spots])
  unfold capturedLocal
  split
  · trivial
  · split
    · exact takes_of_spots rfl trivial (by simp [Tree.spots])
    · split
      · trivial
      · split
        · exact takes_of_spots rfl trivial (by simpa [Tree.spots] using hthis _)
        · trivial

theorem View.localAccess_takes (v : View) (d : LocalDecl) :
    Yields (Spot.operand.Takes h) (v.localAccess d excerpt) := by
  unfold localAccess
  split
  · split
    · exact takes_of_spots rfl trivial (by simp [Tree.spots])
    · trivial
  · split
    · exact takes_of_spots rfl trivial (by simp [Tree.spots])
    · exact v.capturedLocal_takes d _

end Access

/-- The spot that a role compiles for. -/
def Role.spot : Role → Spot
  | receiver => .object
  | value | target | initializer _ => .operand

/-- The tree suits the role: it may stand at its spot, and what is stored to is a place. -/
structure Role.Suits (h : Hierarchy) (role : Role) (t : Tree) : Prop where
  takes : role.spot.Takes h t
  lvalue : role = .target → t.isLvalue

theorem Role.suits_of_ne_target {role : Role} (hrole : role ≠ .target)
    (ht : role.spot.Takes h t) : role.Suits h t :=
  ⟨ht, fun heq => absurd heq hrole⟩

theorem Role.Reads.suits {role : Role} (hrole : role.Reads) (ht : Spot.operand.Takes h t) :
    role.Suits h t := by
  cases hrole with
  | value => exact Role.suits_of_ne_target (by simp) ht
  | receiver => exact Role.suits_of_ne_target (by simp) (ht.mono rfl)

theorem Role.Permits.suits {role : Role} (hrole : role.Permits t) (ht : Spot.operand.Takes h t) :
    role.Suits h t := by
  cases hrole with
  | reads hreads => exact hreads.suits ht
  | target hlvalue => exact ⟨ht, fun _ => hlvalue⟩

/-- The relation between expressions and trees that suit their roles. -/
abbrev Suitable (h : Hierarchy) (role : Role) (_ : Expr) (t : Tree) : Prop := role.Suits h t

theorem Suitable.stored {e : Expr} {ty : Ty} (ht : e.Stores (Suitable h) ty t) :
    Spot.operand.Takes h t := by
  cases ht with
  | braces ht => exact ht.takes
  | value hx => exact hx.tree.takes.converts (.assignTo .refl ty)

theorem length_assignEach (params : List Ty) (args : List Operand) :
    (assignEach params args).length = min params.length args.length := by
  rw [assignEach, List.length_zipWith]

/-- A method gets an argument for each of its parameters, and what collects is an array. -/
theorem Hierarchy.arguments_length (m : MethodDecl) (args : List Operand) (excerpt : Excerpt) :
    Yields (fun trees => trees.length = m.params.length ∧ m.ref.Collects)
      (h.arguments m args excerpt) := by
  unfold arguments MethodDecl.variadic?
  split
  next hnone =>
    split
    next hlength =>
      refine ⟨by rw [length_assignEach, hlength, Nat.min_self], fun hvarargs last hlast => ?_⟩
      have hvarargs' : m.varargs := hvarargs
      have hlast' : m.params.getLast? = some last := hlast
      rw [if_pos hvarargs', hlast'] at hnone
      cases hnone
    · trivial
  next fixed collecting hsome =>
    split at hsome
    next hvarargs =>
      obtain ⟨last, hlast, heq⟩ := Option.map_eq_some_iff.1 hsome
      cases heq
      obtain ⟨front, hparams⟩ := List.getLast?_eq_some_iff.1 hlast
      have hfront : m.params.dropLast.length + 1 = m.params.length := by simp [hparams]
      split
      · trivial
      next hfew =>
        split
        · trivial
        next component hcomponent =>
          have hcollects : m.ref.Collects := by
            intro _ other hother
            cases hlast.symm.trans hother
            exact Ty.isArray_of_component? hcomponent
          split
          next hwhole =>
            have hlength : args.length = m.params.length := by
              simpa using (Bool.and_eq_true_iff.1 hwhole).1
            exact ⟨by rw [length_assignEach, hlength, Nat.min_self], hcollects⟩
          · -- One array stands for all that is left over after the fixed parameters.
            refine ⟨?_, hcollects⟩
            rw [List.length_append, length_assignEach, List.length_take, List.length_singleton]
            omega
    · cases hsome

theorem Hierarchy.arguments_takes (m : MethodDecl) {args : List Operand} {excerpt : Excerpt}
    (hargs : ∀ x ∈ args, Spot.operand.Takes h x.tree) :
    Yields (fun trees => (∀ t ∈ trees, Spot.operand.Takes h t) ∧
        trees.length = m.params.length ∧ m.ref.Collects)
      (h.arguments m args excerpt) :=
  (h.arguments_meets m (fun _ _ => trivial) (fun x hx _ hxy => (hargs x hx).converts hxy)
    fun _ _ _ => takes_array).and (arguments_length m args excerpt)

namespace View

variable {v : View} {note : Note}

theorem simpleName_takes (v : View) (note : Note) (name : String) (decl : Decl) :
    Yields (Spot.operand.Takes h) (v.simpleName note name decl) := by
  cases decl with
  | localVar d => exact v.localAccess_takes d
  | field d => exact v.fieldAccess_takes d (by simp)
  | method m => trivial
  | type ty => exact takes_of_spots rfl trivial (by simp [Tree.spots])
  | unresolved =>
      unfold simpleName
      dsimp only
      split
      · exact takes_of_spots rfl trivial (by simp [Tree.spots])
      · trivial

theorem qualifiedName_takes (name : String) (onType : Bool) (decl : Decl)
    {object : Except Fault Tree} (hobject : Yields (Spot.object.Takes h) object) :
    Yields (Spot.operand.Takes h) (v.qualifiedName note name onType object decl) := by
  cases decl with
  | field d =>
      unfold qualifiedName
      dsimp only
      split
      · exact v.fieldAccess_takes d (by simp)
      · refine hobject.bind fun t ht => v.fieldAccess_takes d ?_
        simpa using ht
  | unresolved =>
      unfold qualifiedName
      dsimp only
      split
      · exact hobject.bind fun t ht => takes_of_spots rfl trivial (by simpa [Tree.spots] using ht)
      · trivial
  | localVar d => exact v.simpleName_takes note name (.localVar d)
  | method m => exact v.simpleName_takes note name (.method m)
  | type ty => exact v.simpleName_takes note name (.type ty)

theorem combine_takes {start : Span} {op : BinaryOp} {left right : Operand} {e : Expr}
    (hleft : Spot.operand.Takes h left.tree) (hright : Spot.operand.Takes h right.tree) :
    Yields (fun x => Spot.operand.Takes h x.tree) (v.combine start op left right e) := by
  obtain ⟨hl, hr⟩ := op.converts_convert left right
  unfold combine
  dsimp only
  split
  · refine takes_of_spots rfl trivial ?_
    simpa [Tree.spots] using ⟨hleft.converts hl, hright.converts hr⟩
  · trivial

theorem applyUnary_takes {op : UnaryOp} {x : Operand} (hx : Spot.operand.Takes h x.tree) :
    Yields (Spot.operand.Takes h) (v.applyUnary note op x) := by
  have hoperand := hx.converts (converts_unaryOperand op x)
  unfold applyUnary
  dsimp only
  split
  · exact takes_of_spots rfl trivial (by simpa [Tree.spots] using hoperand)
  · trivial

theorem condition_takes {e : Expr} {x : Operand} (hx : Spot.operand.Takes h x.tree) :
    Yields (Spot.operand.Takes h) (v.condition e x) := by
  unfold condition
  dsimp only
  split
  · exact hx.converts Operand.Converts.refl.unwrap
  · trivial

theorem intValue_takes {e : Expr} {x : Operand} (hx : Spot.operand.Takes h x.tree) :
    Yields (Spot.operand.Takes h) (v.intValue e x) := by
  unfold intValue
  dsimp only
  split
  · exact hx.converts Operand.Converts.refl.promote
  · trivial

theorem stepTree_takes (op : StepOp) (form : StepForm) {kind : Kind} {ty : Ty} {place : Tree}
    (hkind : ty.kind?.filter Kind.isNumeric = some kind) (hplace : Role.target.Suits h place) :
    Spot.operand.Takes h (stepTree op form kind ty place) := by
  obtain ⟨read, one, value, hread, -, hone, -, hvalue, heq⟩ :=
    stepTree_eq op form place (Option.filter_eq_some_iff.1 hkind).1
  rw [heq]
  have hliteral : Spot.operand.Takes h (.literal (.int 1) .int) :=
    takes_of_spots rfl trivial (by simp [Tree.spots])
  have hbinary (ty : Ty) : Spot.operand.Takes h (.binary op.binary read.tree one.tree ty) := by
    refine takes_of_spots rfl trivial ?_
    simpa [Tree.spots] using ⟨hplace.takes.converts hread, hliteral.converts hone⟩
  refine takes_of_spots rfl (hplace.lvalue rfl) ?_
  simpa [Tree.spots] using ⟨hplace.takes, (hbinary _).converts hvalue⟩

theorem Chains.takes {start : Span} {left whole : Operand} {rest : List Expr} {ops : List BinaryOp}
    (hchains : v.Chains (Suitable h) start left rest ops whole)
    (hleft : Spot.operand.Takes h left.tree) : Spot.operand.Takes h whole.tree := by
  induction hchains with
  | nil => exact hleft
  | cons hright hnext _ ih => exact ih ((combine_takes hleft hright.tree.takes).of_ok hnext)

/-- There is an enclosing instance in front exactly if the constructor takes one. -/
theorem Encloses.length_eq {Q : Role → Expr → Tree → Prop} {excerpt : Excerpt}
    {outerClass : Option ClassId} {outer : Option Expr} {enclosing : List Tree}
    (henclosing : v.Encloses Q excerpt outerClass outer enclosing) :
    enclosing.length = outerClass.isSome.toNat := by
  cases henclosing <;> rfl

theorem arguments_suitable {m : MethodDecl} {excerpt : Excerpt} {args : List Expr}
    {operands : List Operand} {trees : List Tree}
    (hargs : args.Forall₂ (Expr.Gives (Suitable h)) operands)
    (htrees : h.arguments m operands excerpt = .ok trees) :
    (∀ t ∈ trees, Spot.operand.Takes h t) ∧ trees.length = m.params.length ∧ m.ref.Collects := by
  have htakes : ∀ x ∈ operands, Spot.operand.Takes h x.tree :=
    forall_mem_right hargs fun _ _ _ hx => hx.tree.takes
  exact (Hierarchy.arguments_takes m htakes).of_ok htrees

/-- Each form of expression compiles to a tree that suits its role. -/
theorem rules_suitable (v : View) : v.Rules (Suitable v.hierarchy) where
  literal hrole := hrole.suits (takes_of_spots rfl trivial (by simp [Tree.spots]))
  simpleName hrole ht := hrole.suits ((v.simpleName_takes _ _ _).of_ok ht)
  length hrole _ hq _ := by
    refine hrole.suits (takes_of_spots rfl trivial ?_)
    simpa [Tree.spots] using hq.takes.mono rfl
  qualifiedName hrole _ hq ht :=
    hrole.suits ((qualifiedName_takes _ _ _ (hq.imp fun _ h => h.takes)).of_ok ht)
  thisRef hrole _ := hrole.suits (takes_of_spots rfl trivial (by simp [Tree.spots]))
  superRef _ :=
    Role.suits_of_ne_target (by simp) (takes_of_spots rfl trivial (by simp [Tree.spots]))
  classLiteral hrole := hrole.suits (takes_of_spots rfl trivial (by simp [Tree.spots]))
  paren _ hinner := hinner
  chain hrole hfirst hrest := hrole.suits (hrest.takes hfirst.tree.takes)
  unary hrole hx ht := hrole.suits ((applyUnary_takes hx.tree.takes).of_ok ht)
  step hrole _ hkind hplace := hrole.suits (stepTree_takes _ _ hkind hplace)
  assign hrole _ hplace hx := by
    refine hrole.suits (takes_of_spots rfl (hplace.lvalue rfl) ?_)
    simpa [Tree.spots] using ⟨hplace.takes, hx.tree.takes.converts (.assignTo .refl _)⟩
  conditional hrole _ hc htest hx hy := by
    have htest := (condition_takes hc.tree.takes).of_ok htest
    refine hrole.suits (takes_of_spots rfl trivial ?_)
    simpa [Tree.spots] using ⟨htest, hx.tree.takes.converts (.assignTo .refl _),
      hy.tree.takes.converts (.assignTo .refl _)⟩
  instanceOf hrole hx _ := by
    refine hrole.suits (takes_of_spots rfl trivial ?_)
    simpa [Tree.spots, Role.spot] using hx.tree.takes
  cast hrole hx := hrole.suits (hx.tree.takes.converts (.convertTo .refl _))
  index hrole ha _ hx hposition := by
    have hposition := (intValue_takes hx.tree.takes).of_ok hposition
    refine hrole.suits (takes_of_spots rfl trivial ?_)
    simpa [Tree.spots] using ⟨ha.tree.takes, hposition⟩
  call hrole hreceiver hobject hargs htrees := by
    have hfront := hreceiver.forall_mem fun _ _ _ ht => ht.takes
    have hobject := (v.memberOwner_takes _ _ hfront).of_ok hobject
    obtain ⟨htakes, hlength, hcollects⟩ := arguments_suitable hargs htrees
    refine hrole.suits (takes_of_spots rfl ⟨hlength, hobject.2, hcollects⟩ ?_)
    simpa [Tree.spots] using ⟨hobject.1, htakes⟩
  newInstance hrole henclosing hargs htrees := by
    have hfront := henclosing.forall_mem (fun _ _ _ ht => ht.takes) fun c t ht =>
      (v.thisFor_takes (h := v.hierarchy) c).of_ok ht
    obtain ⟨htakes, hlength, hcollects⟩ := arguments_suitable hargs htrees
    refine hrole.suits (takes_of_spots rfl ⟨?_, hcollects⟩ ?_)
    · rw [List.length_append, hlength, henclosing.length_eq, Nat.add_comm]
      rfl
    · simpa [Tree.spots, or_imp, forall_and] using ⟨hfront, htakes⟩
  filledArray hrole _ hinit := hrole.suits hinit.takes
  emptyArray hrole _ hx hlength := by
    have hlength := (intValue_takes hx.tree.takes).of_ok hlength
    refine hrole.suits (takes_of_spots rfl (by simp [Tree.Complete]) ?_)
    simpa [Tree.spots] using hlength
  braces hrole _ htrees := by
    have htakes := forall_mem_right htrees fun _ _ _ ht => Suitable.stored ht
    obtain rfl | ⟨hreads, -⟩ := hrole
    · exact Role.suits_of_ne_target (by simp) (takes_array htakes)
    · exact hreads.suits (takes_array htakes)

theorem lowerValue_takes (v : View) (e : Expr) :
    Yields (Spot.operand.Takes v.hierarchy) (v.lower .value e) :=
  (v.rules_suitable.yields .value e).imp fun _ ht => ht.takes

theorem lowerCondition_takes (v : View) (e : Expr) :
    Yields (Spot.operand.Takes v.hierarchy) (v.lowerCondition e) :=
  (v.rules_suitable.operand e).bind fun _ hx => condition_takes hx.tree.takes

theorem lowerInit_takes (v : View) (name : String) (ty : Ty) (init : Option Expr) :
    Yields (fun store => ∀ t ∈ store, Spot.operand.Takes v.hierarchy t ∧
        ∃ value, t = .assign (.localVar name .fragment) value false)
      (v.lowerInit name ty init) := by
  cases init with
  | none => exact nofun
  | some e =>
      apply ((v.rules_suitable.initial ty e).imp fun _ => Suitable.stored).bind
      intro value hvalue
      rintro _ ⟨⟩
      have hplace : Spot.operand.Takes v.hierarchy (.localVar name .fragment) :=
        takes_of_spots rfl trivial (by simp [Tree.spots])
      exact ⟨takes_of_spots rfl rfl (by simpa [Tree.spots] using ⟨hplace, hvalue⟩), value, rfl⟩

end View

/-! ### Statements -/

/-- The spot that a statement stands at. -/
def Placement.spot : Placement → Spot
  | listed => .listed
  | single | labeled _ => .branch

theorem Placement.accepts (placement : Placement) :
    placement.spot.accepts .value ∧ placement.spot.accepts .statement := by
  cases placement <;> exact ⟨rfl, rfl⟩

/-- What may be a branch may stand wherever statements do. -/
theorem Placement.takes_of_branch (placement : Placement) (ht : Spot.branch.Takes h t) :
    placement.spot.Takes h t := by
  refine ⟨?_, ht.proper⟩
  have hform := ht.accepts
  cases placement with
  | listed =>
      change (t.form == .value || t.form == .statement || t.form == .declaration) = true
      rw [show (t.form == .value || t.form == .statement) = true from hform, Bool.true_or]
  | single => exact hform
  | labeled label => exact hform

theorem takes_of_statement (placement : Placement) (hform : t.form = .statement)
    (hcomplete : t.Complete h) (hspots : ∀ p ∈ t.spots, p.1.Takes h p.2) :
    placement.spot.Takes h t :=
  takes_of_spots (by rw [hform]; exact placement.accepts.2) hcomplete hspots

section Statements

open Lowering

variable {site : Site}

theorem lowerVar_takes (excerpt : Excerpt) (var : Declarator) :
    StaysAt site (fun entry => entry.Starts ∧
        ∀ t ∈ entry.trees, Spot.operand.Takes site.hierarchy t)
      (lowerVar excerpt var) := by
  unfold lowerVar
  apply (staysAt_declare _ _).bind
  intro _ _
  apply (staysAt_ofView fun v hv => hv ▸ v.lowerInit_takes var.decl.name var.decl.ty var.init).bind
  intro init hinit
  refine within_pure ⟨⟨⟨_, rfl, Constant.isZero_zero _⟩, fun t ht => (hinit t ht).2⟩, ?_⟩
  refine List.forall_mem_cons.2 ⟨takes_of_spots rfl trivial (by simp [Tree.spots]), ?_⟩
  exact fun t ht => (hinit t (Option.mem_toList.1 ht)).1

/-- Every statement is a tree for the place where it stands, above operands. -/
@[simps] def Stmt.Spec.placed (h : Hierarchy) : Stmt.Spec where
  value _ t := Spot.operand.Takes h t
  condition _ t := Spot.operand.Takes h t
  entry _ entry := entry.Starts ∧ ∀ t ∈ entry.trees, Spot.operand.Takes h t
  stmt placement _ t := placement.spot.Takes h t

theorem Stmt.Spec.closed_placed : (placed h).Closed where
  empty _ := takes_of_statement _ rfl trivial (by simp [Tree.spots])
  expr {placement _ _ _} _ ht := ht.mono placement.accepts.1
  decl hentries := by
    have hentries := forall_mem_right hentries fun _ _ _ h => h
    refine takes_of_spots rfl (fun entry hentry => (hentries entry hentry).1) fun p hp => ?_
    obtain ⟨t, ht, rfl⟩ := List.mem_map.1 hp
    obtain ⟨entry, hentry, ht⟩ := List.mem_flatMap.1 ht
    exact (hentries entry hentry).2 t ht
  block _ hitems := by
    refine takes_of_statement _ rfl trivial fun p hp => ?_
    obtain ⟨t, ht, rfl⟩ := List.mem_map.1 hp
    obtain ⟨item, hitem, rfl⟩ := List.mem_map.1 ht
    have hlisted := forall_mem_right hitems (fun _ _ _ h => h) item hitem
    exact takes_of_spots rfl trivial (by simpa [Tree.spots, Placement.spot] using hlisted)
  ifElse htest hfirst hsecond := by
    have hsecond := forall_mem_of_rel hsecond fun _ _ h => h
    refine takes_of_statement _ rfl trivial ?_
    simpa [Tree.spots] using ⟨htest, hfirst, hsecond⟩
  whileLoop htest hround :=
    takes_of_statement _ rfl trivial (by simpa [Tree.spots] using ⟨htest, hround⟩)
  doLoop hround htest :=
    takes_of_statement _ rfl trivial (by simpa [Tree.spots] using ⟨hround, htest⟩)
  forLoop hfirst htest hnext hround := by
    refine takes_of_statement _ rfl trivial fun p hp => ?_
    simp only [Tree.spots, List.mem_append, List.mem_map, Option.mem_toList,
      List.mem_singleton] at hp
    rcases hp with ((⟨t, ht, rfl⟩ | ⟨t, ht, rfl⟩) | ⟨t, ht, rfl⟩) | rfl
    · exact forall_mem_right hfirst (fun _ _ _ h => h) t ht
    · exact forall_mem_of_rel htest (fun _ _ h => h) t ht
    · exact forall_mem_right hnext (fun _ _ _ h => h) t ht
    · exact hround
  breakTo _ := takes_of_statement _ rfl trivial (by simp [Tree.spots])
  continueTo _ := takes_of_statement _ rfl trivial (by simp [Tree.spots])
  returnValue _ ht := by
    have ht := forall_mem_of_rel ht fun _ _ h => h
    exact takes_of_statement _ rfl trivial (by simpa [Tree.spots] using ht)
  throwValue _ ht := takes_of_statement _ rfl trivial (by simpa [Tree.spots] using ht)
  labeled {placement _ _ _ _} _ ht := placement.takes_of_branch ht

theorem Site.parts_placed (site : Site) : (Stmt.Spec.placed site.hierarchy).Parts
    (Logic.within fun c => c.toSite = site) (fun _ => True) fun _ => True := by
  refine Stmt.Spec.parts_within (fun e _ => ?_) (fun e _ => ?_) fun excerpt var _ => ?_
  · exact staysAt_ofView fun v hv => hv ▸ v.lowerValue_takes e
  · exact staysAt_ofView fun v hv => hv ▸ v.lowerCondition_takes e
  · exact lowerVar_takes excerpt var

/-- A statement compiles to a tree for the place where it stands. -/
theorem lowerStmt_takes (placement : Placement) (s : Stmt) :
    StaysAt site (placement.spot.Takes site.hierarchy) (lowerStmt placement s) :=
  site.parts_placed.lowerStmt_inList Stmt.Spec.closed_placed placement s
    (fun _ _ => trivial) fun _ _ => trivial

theorem lowerFragment_proper (stmts : List Stmt) :
    StaysAt site (fun t => t.form = .fragment ∧ t.Proper site.hierarchy)
      (lowerFragment stmts) := by
  have hitems := site.parts_placed.lowerItems Stmt.Spec.closed_placed stmts
    (fun _ _ => trivial) fun _ _ => trivial
  refine .bracket (Within.bind hitems fun items hitems => within_pure ⟨rfl, ?_⟩) (fun _ => id)
    fun _ => id
  have hlisted := forall_mem_right hitems fun _ _ _ h => h
  exact Tree.proper_iff.2 ⟨trivial, by simpa [Tree.spots, Placement.spot] using hlisted⟩

end Statements

/-- Whatever is compiled is grammatical: an expression to a value, a statement to a value or a
statement, and a statement list to the one tree that may be a whole statement list. -/
theorem compiled_trees_grammatical (site : Site) :
    (∀ e t, compileExpr site e = .ok t → t.Grammatical site.hierarchy ∧ t.form = .value) ∧
    (∀ s t, compileStmt site s = .ok t → t.Grammatical site.hierarchy ∧
      (t.form = .value ∨ t.form = .statement)) ∧
    ∀ stmts t, compileFragment site stmts = .ok t → t.Grammatical site.hierarchy ∧
      t.form = .fragment := by
  refine ⟨fun e t he => ?_, fun s t hs => ?_, fun stmts t hstmts => ?_⟩
  · have ht := ((Context.start site).view.lowerValue_takes e).of_ok he
    exact ⟨ht.proper.grammatical, eq_of_beq ht.accepts⟩
  · have ht := ((lowerStmt_takes .single s).outcome rfl).of_ok hs
    refine ⟨ht.proper.grammatical, ?_⟩
    simpa [Placement.spot, Spot.accepts] using ht.accepts
  · have ht := ((lowerFragment_proper stmts).outcome rfl).of_ok hstmts
    exact ⟨ht.2.grammatical, ht.1⟩

/-- A method that collects numbers. -/
def MethodDecl.log : MethodDecl where
  name := "log"
  declaring := ⟨2⟩
  params := [.array (.prim .int) 1]
  varargs := true

/-- A call of that method on the superclass view of the current instance. -/
def Expr.superLog : Expr :=
  .call {} (some (.superRef {} none)) "log" (some .log)
    [.literal { ty? := some .int } (.int 1), .literal { ty? := some .int } (.int 2)]

/-- A declaration, and a block with declarations and the call inside it. -/
def Stmt.logLocals : List Stmt :=
  [.decl {} [⟨{ name := "n", ty := .int }, some (.literal { ty? := some .int } (.int 1)), {}⟩],
    .block {} [
      .decl {} [⟨{ name := "on", ty := .boolean }, none, {}⟩,
        ⟨{ name := "c", ty := .prim .char }, none, {}⟩,
        ⟨{ name := "l", ty := .prim .long }, none, {}⟩,
        ⟨{ name := "f", ty := .prim .float }, none, {}⟩,
        ⟨{ name := "d", ty := .prim .double }, none, {}⟩,
        ⟨{ name := "s", ty := .string }, none, {}⟩],
      .expr {} .superLog]]

/-- The superclass view is the object of the call, and the two numbers are collected in one array.
-/
def Tree.superLog : Tree :=
  .call (.superAt 0) MethodDecl.log.ref [.newArray (.array (.prim .int) 1) none
    (some [.literal (.int 1) .int, .literal (.int 2) .int])]

/-- The declarations stand in the list and under a pin, each variable with its zero value. -/
def Tree.logLocals : Tree :=
  .fragment [
    .declare [.mk "n" .int (.literal (.int 0) .int)
      (some (.assign (.localVar "n" .fragment) (.literal (.int 1) .int) false))],
    .block [
      .pin (.declare [.mk "on" .boolean (.literal (.bool false) .boolean) none,
        .mk "c" (.prim .char) (.literal (.char '\x00') (.prim .char)) none,
        .mk "l" (.prim .long) (.literal (.long 0) (.prim .long)) none,
        .mk "f" (.prim .float) (.literal (.float 0) (.prim .float)) none,
        .mk "d" (.prim .double) (.literal (.double 0) (.prim .double)) none,
        .mk "s" .string (.literal .null .string) none]),
      .pin .superLog]]

/-- A position on an instance of a class of which nothing is known. -/
def Site.onUnknown : Site := ⟨.empty, ⟨[⟨1⟩], .onInstance⟩, {}⟩

/-- The call, a block of it, and the list of statements compile to these trees. -/
theorem compiled_trees_grammatical_superLog :
    (compileExpr .onUnknown .superLog = .ok .superLog ∧
      Tree.superLog.Grammatical .empty ∧ Tree.superLog.form = .value) ∧
    (compileStmt .onUnknown (.block {} [.expr {} .superLog]) = .ok (.block [.pin .superLog]) ∧
      (Tree.block [.pin .superLog]).Grammatical .empty ∧
      ((Tree.block [.pin .superLog]).form = .value ∨
        (Tree.block [.pin .superLog]).form = .statement)) ∧
    compileFragment .onUnknown Stmt.logLocals = .ok .logLocals ∧
      Tree.logLocals.Grammatical .empty ∧ Tree.logLocals.form = .fragment := by
  have hgrammatical := compiled_trees_grammatical .onUnknown
  have hexpr : compileExpr .onUnknown .superLog = .ok .superLog := rfl
  have hstmt : compileStmt .onUnknown (.block {} [.expr {} .superLog]) =
      .ok (.block [.pin .superLog]) := rfl
  have hstmts : compileFragment .onUnknown Stmt.logLocals = .ok .logLocals := rfl
  exact ⟨⟨hexpr, hgrammatical.1 _ _ hexpr⟩, ⟨hstmt, hgrammatical.2.1 _ _ hstmt⟩, hstmts,
    hgrammatical.2.2 _ _ hstmts⟩

end Breakpoint
