import Breakpoint.Proofs.Nodes

/-!
The grammar of compiled trees. A tree has a form, each place below a tree accepts some forms, and a
few kinds of node make demands of their own: a store needs a place to store to, a new array either a
length or elements, a call as many arguments as there are parameters. All this concerns a node and
what stands directly below it; what follows for a tree as a whole is derived at the end.
-/

namespace Breakpoint

/-- What a tree is, as far as its place in a larger tree is concerned. -/
inductive Form where
  | value
  | superView
  | statement
  | declaration
  | pin
  | fragment
deriving DecidableEq, Repr

/-- Expressions are the values and the superclass view of an instance. -/
def Form.isExpression : Form → Bool
  | value | superView => true
  | statement | declaration | pin | fragment => false

/-- A place below a tree. -/
inductive Spot where
  /-- The object of a field or of a call. -/
  | object
  /-- Any other place where a value is expected. -/
  | operand
  /-- A place in a block. -/
  | inBlock
  /-- A place in a whole statement list or in the header of a loop, or the one under a pin. -/
  | listed
  /-- A branch of a choice, or the body of a loop. -/
  | branch
deriving DecidableEq, Repr

def Spot.accepts : Spot → Form → Bool
  | object, form => form.isExpression
  | operand, form => form == .value
  | inBlock, form => form == .pin
  | listed, form => form == .value || form == .statement || form == .declaration
  | branch, form => form == .value || form == .statement

namespace Tree

def form : Tree → Form
  | .superAt _ => .superView
  | .pin _ => .pin
  | .declare _ => .declaration
  | .fragment _ => .fragment
  | .block _ | .ifElse .. | .whileLoop .. | .doLoop .. | .forLoop .. | .breakTo _ | .continueTo _
  | .returnValue _ | .throwValue _ => .statement
  | _ => .value

/-- The trees directly below a tree, with the places where they stand. -/
def spots : Tree → List (Spot × Tree)
  | .literal .. | .localVar .. | .thisAt _ | .superAt _ | .typeRef _ | .classObject _ | .breakTo _
  | .continueTo _ => []
  | .field object _ _ => [(.object, object)]
  | .call object _ args => (.object, object) :: args.map (.operand, ·)
  | .newInstance _ _ args => args.map (.operand, ·)
  | .newArray _ dimension elements =>
    dimension.toList.map (.operand, ·) ++ (elements.getD []).map (.operand, ·)
  | .element array index => [(.operand, array), (.operand, index)]
  | .assign target value _ => [(.operand, target), (.operand, value)]
  | .binary _ left right _ => [(.operand, left), (.operand, right)]
  | .unary _ operand _ | .instanceOf operand _ | .cast operand _ | .box operand _
  | .unbox operand _ | .throwValue operand => [(.operand, operand)]
  | .conditional condition thenValue elseValue =>
    [(.operand, condition), (.operand, thenValue), (.operand, elseValue)]
  | .pin stmt => [(.listed, stmt)]
  | .block stmts => stmts.map (.inBlock, ·)
  | .fragment stmts => stmts.map (.listed, ·)
  | .declare locals => (locals.flatMap LocalInit.trees).map (.operand, ·)
  | .ifElse _ condition thenBranch elseBranch =>
    (.operand, condition) :: (.branch, thenBranch) :: elseBranch.toList.map (.branch, ·)
  | .whileLoop _ condition body => [(.operand, condition), (.branch, body)]
  | .doLoop _ body condition => [(.branch, body), (.operand, condition)]
  | .forLoop _ init condition update body =>
    init.map (.listed, ·) ++ condition.toList.map (.operand, ·) ++ update.map (.operand, ·) ++
      [(.branch, body)]
  | .returnValue value => value.toList.map (.operand, ·)

theorem map_spots (t : Tree) : t.spots.map Prod.snd = t.children := by
  cases t <;> simp [spots, children, Function.comp_def]

theorem mem_children_iff {s t : Tree} : s ∈ t.children ↔ ∃ spot, (spot, s) ∈ t.spots := by
  rw [← map_spots]
  simp

/-- The tree `s` is listed below `n`: in a whole statement list, under a pin or in the header of a
loop. -/
def Lists (n s : Tree) : Prop :=
  (∃ stmts, n = .fragment stmts ∧ s ∈ stmts) ∨ n = .pin s ∨
    ∃ label init condition update body, n = .forLoop label init condition update body ∧ s ∈ init

theorem lists_of_mem_spots {n s : Tree} (h : (.listed, s) ∈ n.spots) : n.Lists s := by
  cases n with
  | fragment stmts => exact .inl ⟨stmts, rfl, by simpa [spots] using h⟩
  | pin stmt =>
      have heq : s = stmt := by simpa [spots] using h
      exact .inr (.inl (by rw [heq]))
  | forLoop label init condition update body =>
      exact .inr (.inr ⟨label, init, condition, update, body, rfl, by simpa [spots] using h⟩)
  | _ => simp [spots] at h

theorem member_of_mem_spots {n s : Tree} (h : (.object, s) ∈ n.spots) :
    (∃ name filter, n = .field s name filter) ∨ ∃ m args, n = .call s m args := by
  cases n with
  | field object name filter =>
      have heq : s = object := by simpa [spots] using h
      exact .inl ⟨name, filter, by rw [heq]⟩
  | call object m args =>
      have heq : s = object := by simpa [spots] using h
      exact .inr ⟨m, args, by rw [heq]⟩
  | _ => simp [spots] at h

end Tree

/-- The zero value of each type. -/
inductive Constant.IsZero : Ty → Constant → Prop where
  | boolean : IsZero (.prim .boolean) (.bool false)
  | char : IsZero (.prim .char) (.char '\x00')
  | int {kind : Kind} (hkind : kind ∈ [.byte, .short, .int]) : IsZero (.prim kind) (.int 0)
  | long : IsZero (.prim .long) (.long 0)
  | float : IsZero (.prim .float) (.float 0)
  | double : IsZero (.prim .double) (.double 0)
  | null {ty : Ty} (hty : ¬ty.isPrim) : IsZero ty .null

theorem Constant.isZero_zero (ty : Ty) : IsZero ty (.zero ty) := by
  cases ty with
  | prim kind =>
      cases kind with
      | boolean => exact .boolean
      | char => exact .char
      | byte | short | int => exact .int (by decide)
      | long => exact .long
      | float => exact .float
      | double => exact .double
  | _ => exact .null Bool.false_ne_true

/-- A declared variable starts with the zero value of its type, and is then stored to, if at all. -/
def LocalInit.Starts : LocalInit → Prop
  | .mk name ty zero init => (∃ value, zero = .literal value ty ∧ Constant.IsZero ty value) ∧
    ∀ t ∈ init, ∃ value, t = .assign (.localVar name .fragment) value false

/-- The constructor of the class takes an enclosing instance in front of its arguments. -/
def Hierarchy.takesEnclosing (h : Hierarchy) (c : ClassId) : Bool :=
  ((h.get? c).bind fun info => if info.nesting = .inner then info.outer else none).isSome

/-- The last parameter of a method of variable arity collects its arguments in an array. -/
def MethodRef.Collects (m : MethodRef) : Prop :=
  m.varargs → ∀ last ∈ m.params.getLast?, last.isArray

namespace Tree

/-- The node has all that its kind demands. -/
def Complete (h : Hierarchy) : Tree → Prop
  | .call object m args => args.length = m.params.length ∧
    (m.isStatic → object = .typeRef (.ofClass m.declaring)) ∧ m.Collects
  | .newInstance c m args =>
    args.length = m.params.length + (h.takesEnclosing c).toNat ∧ m.Collects
  | .newArray _ dimension elements => dimension.isSome ≠ elements.isSome
  | .assign target _ _ => target.isLvalue
  | .declare locals => ∀ entry ∈ locals, entry.Starts
  | _ => True

/-- Every node is complete, and accepted where it stands. -/
def Proper (h : Hierarchy) (t : Tree) : Prop :=
  t.Every fun n => n.Complete h ∧ ∀ p ∈ n.spots, p.1.accepts p.2.form

end Tree

/-- The spot accepts the tree, which is proper throughout. -/
structure Spot.Takes (h : Hierarchy) (spot : Spot) (t : Tree) : Prop where
  accepts : spot.accepts t.form
  proper : t.Proper h

variable {h : Hierarchy} {t : Tree}

theorem Tree.proper_iff :
    t.Proper h ↔ t.Complete h ∧ ∀ p ∈ t.spots, p.1.Takes h p.2 := by
  rw [Proper, every_iff]
  constructor
  · rintro ⟨⟨hcomplete, haccepts⟩, hchildren⟩
    refine ⟨hcomplete, fun p hp => ⟨haccepts p hp, hchildren p.2 ?_⟩⟩
    exact mem_children_iff.2 ⟨p.1, hp⟩
  · rintro ⟨hcomplete, htakes⟩
    refine ⟨⟨hcomplete, fun p hp => (htakes p hp).accepts⟩, fun s hs => ?_⟩
    obtain ⟨spot, hspot⟩ := mem_children_iff.1 hs
    exact (htakes _ hspot).proper

/-! ### Trees as a whole -/

/-- The rules that every node of a tree obeys, whatever the tree is used for. -/
structure Tree.Grammatical (h : Hierarchy) (t : Tree) : Prop where
  /-- Below an expression there are only expressions. -/
  expressions : ∀ n ∈ t.nodes, n.form.isExpression → ∀ m ∈ n.nodes, m.form.isExpression
  /-- A whole statement list stands below nothing. -/
  fragments : ∀ n ∈ t.nodes, ∀ s ∈ n.children, s.form ≠ .fragment
  /-- Pins stand in blocks and nothing else does. -/
  pins : ∀ n ∈ t.nodes, ∀ s ∈ n.children, s.form = .pin ↔ ∃ stmts, n = .block stmts
  /-- Declarations stand in statement lists, under pins and in the headers of loops. -/
  declarations : ∀ n ∈ t.nodes, ∀ spot s, (spot, s) ∈ n.spots → s.form = .declaration →
    spot = .listed ∧ n.Lists s
  /-- Declared variables start with their zero value. -/
  locals : ∀ locals, .declare locals ∈ t.nodes → ∀ entry ∈ locals, entry.Starts
  /-- Stores go to places. -/
  stores : ∀ target value old, .assign target value old ∈ t.nodes → target.isLvalue
  /-- A new array has a length or elements, but not both. -/
  arrays : ∀ ty dimension elements, .newArray ty dimension elements ∈ t.nodes →
    dimension.isSome ≠ elements.isSome
  /-- The superclass view of an instance is the object of a field or of a call. -/
  superViews : ∀ n ∈ t.nodes, ∀ spot s, (spot, s) ∈ n.spots → s.form = .superView →
    spot = .object ∧ ((∃ name filter, n = .field s name filter) ∨ ∃ m args, n = .call s m args)
  /-- A call has an argument for each parameter, and one of a static method names the class. -/
  calls : ∀ object m args, .call object m args ∈ t.nodes → args.length = m.params.length ∧
    (m.isStatic → object = .typeRef (.ofClass m.declaring)) ∧ m.Collects
  /-- So has a creation, but for the enclosing instance that comes first. -/
  creations : ∀ c m args, .newInstance c m args ∈ t.nodes →
    args.length = m.params.length + (h.takesEnclosing c).toNat ∧ m.Collects

namespace Spot

variable {spot : Spot}

theorem eq_listed_of_accepts (h : spot.accepts .declaration) : spot = .listed := by
  cases spot with
  | listed => rfl
  | _ => cases h

theorem eq_object_of_accepts (h : spot.accepts .superView) : spot = .object := by
  cases spot with
  | object => rfl
  | _ => cases h

theorem accepts_fragment (spot : Spot) : ¬spot.accepts .fragment := by
  cases spot <;> exact Bool.false_ne_true

theorem isExpression_of_accepts {form : Form} (hspot : spot = .object ∨ spot = .operand)
    (h : spot.accepts form) : form.isExpression := by
  rcases hspot with rfl | rfl
  · exact h
  · rw [eq_of_beq h]
    rfl

/-- Blocks accept pins only, and pins are accepted nowhere else. -/
theorem accepts_pin_iff {form : Form} (h : spot.accepts form) : form = .pin ↔ spot = .inBlock := by
  cases spot <;> cases form <;> simp_all [accepts, Form.isExpression]

end Spot

namespace Tree

variable {n : Tree} {p : Spot × Tree}

theorem spot_eq_inBlock_iff (hp : p ∈ n.spots) : p.1 = .inBlock ↔ ∃ stmts, n = .block stmts := by
  cases n with
  | block | declare =>
      obtain ⟨s, -, rfl⟩ := List.mem_map.1 hp
      simp
  | _ =>
      simp only [reduceCtorEq, exists_false, iff_false]
      revert p
      simp [spots, or_imp, forall_and]

theorem spot_of_expression (hn : n.form.isExpression) (hp : p ∈ n.spots) :
    p.1 = .object ∨ p.1 = .operand := by
  cases n with
  | pin | block | declare | ifElse | whileLoop | doLoop | forLoop | breakTo | continueTo
  | returnValue | throwValue | fragment => cases hn
  | _ =>
      revert p
      simp [spots, or_imp, forall_and]

theorem Proper.isExpression_of_mem (hproper : t.Proper h) (hform : t.form.isExpression) :
    ∀ m ∈ t.nodes, m.form.isExpression := by
  induction t using children_induction with
  | step t ih =>
      obtain ⟨-, htakes⟩ := proper_iff.1 hproper
      intro m hm
      rw [nodes_eq] at hm
      rcases List.mem_cons.1 hm with rfl | hm
      · exact hform
      · obtain ⟨s, hs, hm⟩ := List.mem_flatMap.1 hm
        obtain ⟨spot, hspot⟩ := mem_children_iff.1 hs
        have hs' := htakes _ hspot
        have hform' := Spot.isExpression_of_accepts (spot_of_expression hform hspot) hs'.accepts
        exact ih s hs hs'.proper hform' m hm

theorem nodes_subset_of_mem (hn : n ∈ t.nodes) : n.nodes ⊆ t.nodes := by
  induction t using children_induction with
  | step t ih =>
      rw [nodes_eq t] at hn ⊢
      rcases List.mem_cons.1 hn with rfl | hn
      · rw [nodes_eq n]
        exact List.Subset.refl _
      · obtain ⟨s, hs, hn⟩ := List.mem_flatMap.1 hn
        intro m hm
        exact List.mem_cons_of_mem _ (List.mem_flatMap.2 ⟨s, hs, ih s hs hn hm⟩)

theorem Proper.of_mem (hproper : t.Proper h) (hn : n ∈ t.nodes) : n.Proper h :=
  fun m hm => hproper m (nodes_subset_of_mem hn hm)

theorem Proper.grammatical (hproper : t.Proper h) : t.Grammatical h where
  expressions n hn hform := (hproper.of_mem hn).isExpression_of_mem hform
  fragments n hn s hs hform := by
    obtain ⟨spot, hspot⟩ := mem_children_iff.1 hs
    have haccepts := (hproper n hn).2 _ hspot
    rw [hform] at haccepts
    exact spot.accepts_fragment haccepts
  pins n hn s hs := by
    obtain ⟨spot, hspot⟩ := mem_children_iff.1 hs
    rw [Spot.accepts_pin_iff ((hproper n hn).2 _ hspot)]
    exact spot_eq_inBlock_iff hspot
  declarations n hn spot s hs hform := by
    have haccepts : spot.accepts s.form := (hproper n hn).2 _ hs
    rw [hform] at haccepts
    obtain rfl := Spot.eq_listed_of_accepts haccepts
    exact ⟨rfl, lists_of_mem_spots hs⟩
  locals locals hn := (hproper _ hn).1
  stores target value old hn := (hproper _ hn).1
  arrays ty dimension elements hn := (hproper _ hn).1
  superViews n hn spot s hs hform := by
    have haccepts : spot.accepts s.form := (hproper n hn).2 _ hs
    rw [hform] at haccepts
    obtain rfl := Spot.eq_object_of_accepts haccepts
    exact ⟨rfl, member_of_mem_spots hs⟩
  calls object m args hn := (hproper _ hn).1
  creations c m args hn := (hproper _ hn).1

end Tree

end Breakpoint
