import Breakpoint.Compile
import Breakpoint.Tree.Nodes
import Mathlib.Data.List.Forall2

/-!
Nodes of trees and of source expressions. A node and what stands directly below it determine all
nodes, so a property of every node can be checked one node at a time, and a fact about trees can be
proved from the same fact about their children.
-/

namespace Breakpoint

/-- The trees in a declared variable. -/
def LocalInit.trees : LocalInit → List Tree
  | .mk _ _ zero init => zero :: init.toList

/-- The trees directly below a tree, in the order of its nodes. -/
def Tree.children : Tree → List Tree
  | .literal .. | .localVar .. | .thisAt _ | .superAt _ | .typeRef _ | .classObject _ | .breakTo _
  | .continueTo _ => []
  | .field object _ _ => [object]
  | .call object _ args => object :: args
  | .newInstance _ _ args => args
  | .newArray _ dimension elements => dimension.toList ++ elements.getD []
  | .element array index => [array, index]
  | .assign target value _ => [target, value]
  | .binary _ left right _ => [left, right]
  | .unary _ operand _ | .instanceOf operand _ | .cast operand _ | .box operand _
  | .unbox operand _ | .pin operand | .throwValue operand => [operand]
  | .conditional condition thenValue elseValue => [condition, thenValue, elseValue]
  | .block stmts | .fragment stmts => stmts
  | .declare locals => locals.flatMap LocalInit.trees
  | .ifElse _ condition thenBranch elseBranch => condition :: thenBranch :: elseBranch.toList
  | .whileLoop _ condition body => [condition, body]
  | .doLoop _ body condition => [body, condition]
  | .forLoop _ init condition update body => init ++ condition.toList ++ update ++ [body]
  | .returnValue value => value.toList

namespace Tree

theorem nodesOfList_eq (trees : List Tree) : nodesOfList trees = trees.flatMap nodes := by
  induction trees with
  | nil => rfl
  | cons t rest ih => rw [nodesOfList, ih, List.flatMap_cons]

theorem nodesOfOption_eq (t : Option Tree) : nodesOfOption t = t.toList.flatMap nodes := by
  cases t with
  | none => rfl
  | some t => simp [nodesOfOption]

theorem nodesOfListOption_eq (trees : Option (List Tree)) :
    nodesOfListOption trees = (trees.getD []).flatMap nodes := by
  cases trees with
  | none => rfl
  | some trees => exact nodesOfList_eq trees

theorem nodesOfLocals_eq (locals : List LocalInit) :
    LocalInit.nodesOfList locals = (locals.flatMap LocalInit.trees).flatMap nodes := by
  induction locals with
  | nil => rfl
  | cons entry rest ih =>
      cases entry with
      | mk name ty zero init =>
          rw [LocalInit.nodesOfList, LocalInit.nodes, ih, nodesOfOption_eq]
          simp [LocalInit.trees]

theorem nodes_eq (t : Tree) : t.nodes = t :: t.children.flatMap nodes := by
  cases t <;>
    simp [nodes, children, nodesOfList_eq, nodesOfOption_eq, nodesOfListOption_eq, nodesOfLocals_eq]

/-- Every node of the tree satisfies `p`. -/
def Every (p : Tree → Prop) (t : Tree) : Prop := ∀ n ∈ t.nodes, p n

theorem every_iff {p : Tree → Prop} {t : Tree} :
    t.Every p ↔ p t ∧ ∀ s ∈ t.children, s.Every p := by
  unfold Every
  rw [nodes_eq]
  simp only [List.mem_cons, List.mem_flatMap, forall_eq_or_imp, forall_exists_index, and_imp]
  exact and_congr_right fun _ => ⟨fun h s hs n => h n s hs, fun h n s hs => h s hs n⟩

theorem size_lt_of_mem_children {s t : Tree} (hs : s ∈ t.children) : s.size < t.size := by
  obtain ⟨before, after, hsplit⟩ := List.append_of_mem hs
  rw [size, size, nodes_eq t, hsplit]
  simp only [List.flatMap_append, List.flatMap_cons, List.length_cons, List.length_append]
  omega

/-- A fact about a tree may be proved from the same fact about its children. -/
theorem children_induction {motive : Tree → Prop}
    (step : ∀ t, (∀ s ∈ t.children, motive s) → motive t) (t : Tree) : motive t :=
  step t fun s _ => children_induction step s
termination_by t.size
decreasing_by exact size_lt_of_mem_children ‹_›

/-- For two trees with the same kind of node at their roots it is enough to look at each kind
once. -/
theorem pair_cases {motive : Tree → Tree → Prop} {t u : Tree} (root : t.ctorIdx = u.ctorIdx)
    (literal : ∀ value ty value' ty', motive (.literal value ty) (.literal value' ty'))
    (localVar : ∀ name slot name' slot', motive (.localVar name slot) (.localVar name' slot'))
    (field : ∀ object name filter object' name' filter',
      motive (.field object name filter) (.field object' name' filter'))
    (thisAt : ∀ depth depth', motive (.thisAt depth) (.thisAt depth'))
    (superAt : ∀ depth depth', motive (.superAt depth) (.superAt depth'))
    (typeRef : ∀ ty ty', motive (.typeRef ty) (.typeRef ty'))
    (classObject : ∀ ty ty', motive (.classObject ty) (.classObject ty'))
    (call : ∀ object method args object' method' args',
      motive (.call object method args) (.call object' method' args'))
    (newInstance : ∀ c constructor args c' constructor' args',
      motive (.newInstance c constructor args) (.newInstance c' constructor' args'))
    (newArray : ∀ ty dimension elements ty' dimension' elements',
      motive (.newArray ty dimension elements) (.newArray ty' dimension' elements'))
    (element : ∀ array index array' index', motive (.element array index) (.element array' index'))
    (assign : ∀ target value yieldsOld target' value' yieldsOld',
      motive (.assign target value yieldsOld) (.assign target' value' yieldsOld'))
    (binary : ∀ op left right ty op' left' right' ty',
      motive (.binary op left right ty) (.binary op' left' right' ty'))
    (unary : ∀ op operand ty op' operand' ty',
      motive (.unary op operand ty) (.unary op' operand' ty'))
    (conditional : ∀ condition thenValue elseValue condition' thenValue' elseValue',
      motive (.conditional condition thenValue elseValue)
        (.conditional condition' thenValue' elseValue'))
    (instanceOf : ∀ operand ty operand' ty',
      motive (.instanceOf operand ty) (.instanceOf operand' ty'))
    (cast : ∀ operand ty operand' ty', motive (.cast operand ty) (.cast operand' ty'))
    (box : ∀ operand kind operand' kind', motive (.box operand kind) (.box operand' kind'))
    (unbox : ∀ operand kind operand' kind', motive (.unbox operand kind) (.unbox operand' kind'))
    (pin : ∀ operand operand', motive (.pin operand) (.pin operand'))
    (block : ∀ stmts stmts', motive (.block stmts) (.block stmts'))
    (declare : ∀ locals locals', motive (.declare locals) (.declare locals'))
    (ifElse : ∀ label condition thenBranch elseBranch label' condition' thenBranch' elseBranch',
      motive (.ifElse label condition thenBranch elseBranch)
        (.ifElse label' condition' thenBranch' elseBranch'))
    (whileLoop : ∀ label condition body label' condition' body',
      motive (.whileLoop label condition body) (.whileLoop label' condition' body'))
    (doLoop : ∀ label body condition label' body' condition',
      motive (.doLoop label body condition) (.doLoop label' body' condition'))
    (forLoop : ∀ label init condition update body label' init' condition' update' body',
      motive (.forLoop label init condition update body)
        (.forLoop label' init' condition' update' body'))
    (breakTo : ∀ label label', motive (.breakTo label) (.breakTo label'))
    (continueTo : ∀ label label', motive (.continueTo label) (.continueTo label'))
    (returnValue : ∀ value value', motive (.returnValue value) (.returnValue value'))
    (throwValue : ∀ value value', motive (.throwValue value) (.throwValue value'))
    (fragment : ∀ stmts stmts', motive (.fragment stmts) (.fragment stmts')) : motive t u := by
  cases t with
  | literal value ty => exact Tree.literal.elim u root.symm (literal value ty)
  | localVar name slot => exact Tree.localVar.elim u root.symm (localVar name slot)
  | field object name filter => exact Tree.field.elim u root.symm (field object name filter)
  | thisAt depth => exact Tree.thisAt.elim u root.symm (thisAt depth)
  | superAt depth => exact Tree.superAt.elim u root.symm (superAt depth)
  | typeRef ty => exact Tree.typeRef.elim u root.symm (typeRef ty)
  | classObject ty => exact Tree.classObject.elim u root.symm (classObject ty)
  | call object method args => exact Tree.call.elim u root.symm (call object method args)
  | newInstance c constructor args =>
      exact Tree.newInstance.elim u root.symm (newInstance c constructor args)
  | newArray ty dimension elements =>
      exact Tree.newArray.elim u root.symm (newArray ty dimension elements)
  | element array index => exact Tree.element.elim u root.symm (element array index)
  | assign target value yieldsOld =>
      exact Tree.assign.elim u root.symm (assign target value yieldsOld)
  | binary op left right ty => exact Tree.binary.elim u root.symm (binary op left right ty)
  | unary op operand ty => exact Tree.unary.elim u root.symm (unary op operand ty)
  | conditional condition thenValue elseValue =>
      exact Tree.conditional.elim u root.symm (conditional condition thenValue elseValue)
  | instanceOf operand ty => exact Tree.instanceOf.elim u root.symm (instanceOf operand ty)
  | cast operand ty => exact Tree.cast.elim u root.symm (cast operand ty)
  | box operand kind => exact Tree.box.elim u root.symm (box operand kind)
  | unbox operand kind => exact Tree.unbox.elim u root.symm (unbox operand kind)
  | pin operand => exact Tree.pin.elim u root.symm (pin operand)
  | block stmts => exact Tree.block.elim u root.symm (block stmts)
  | declare locals => exact Tree.declare.elim u root.symm (declare locals)
  | ifElse label condition thenBranch elseBranch =>
      exact Tree.ifElse.elim u root.symm (ifElse label condition thenBranch elseBranch)
  | whileLoop label condition body =>
      exact Tree.whileLoop.elim u root.symm (whileLoop label condition body)
  | doLoop label body condition => exact Tree.doLoop.elim u root.symm (doLoop label body condition)
  | forLoop label init condition update body =>
      exact Tree.forLoop.elim u root.symm (forLoop label init condition update body)
  | breakTo label => exact Tree.breakTo.elim u root.symm (breakTo label)
  | continueTo label => exact Tree.continueTo.elim u root.symm (continueTo label)
  | returnValue value => exact Tree.returnValue.elim u root.symm (returnValue value)
  | throwValue value => exact Tree.throwValue.elim u root.symm (throwValue value)
  | fragment stmts => exact Tree.fragment.elim u root.symm (fragment stmts)

end Tree

/-- The expressions directly below an expression, in the order in which they are written. -/
def Expr.children : Expr → List Expr
  | .literal .. | .thisRef .. | .superRef .. | .classLiteral .. | .lambda _ | .methodRef _ => []
  | .name _ qualifier _ _ => qualifier.toList
  | .paren _ operand | .unary _ _ operand | .step _ _ _ operand | .instanceOf _ operand _
  | .cast _ _ operand => [operand]
  | .chain _ operands _ => operands
  | .assign _ _ target value => [target, value]
  | .conditional _ condition thenValue elseValue => [condition, thenValue, elseValue]
  | .index _ array position => [array, position]
  | .call _ qualifier _ _ args => qualifier.toList ++ args
  | .newInstance _ _ _ outer args _ => outer.toList ++ args
  | .newArray _ dims init => dims ++ init.toList
  | .braces _ elements => elements

mutual

/-- An expression and all expressions below it. -/
def Expr.nodes (e : Expr) : List Expr :=
  e :: match e with
    | .literal .. | .thisRef .. | .superRef .. | .classLiteral .. | .lambda _ | .methodRef _ => []
    | .name _ qualifier _ _ => Expr.nodesOfOption qualifier
    | .paren _ operand | .unary _ _ operand | .step _ _ _ operand | .instanceOf _ operand _
    | .cast _ _ operand => operand.nodes
    | .chain _ operands _ => Expr.nodesOfList operands
    | .assign _ _ target value => target.nodes ++ value.nodes
    | .conditional _ condition thenValue elseValue =>
      condition.nodes ++ thenValue.nodes ++ elseValue.nodes
    | .index _ array position => array.nodes ++ position.nodes
    | .call _ qualifier _ _ args => Expr.nodesOfOption qualifier ++ Expr.nodesOfList args
    | .newInstance _ _ _ outer args _ => Expr.nodesOfOption outer ++ Expr.nodesOfList args
    | .newArray _ dims init => Expr.nodesOfList dims ++ Expr.nodesOfOption init
    | .braces _ elements => Expr.nodesOfList elements

/-- The nodes of several expressions, one expression after the other. -/
def Expr.nodesOfList : List Expr → List Expr
  | [] => []
  | e :: rest => e.nodes ++ Expr.nodesOfList rest

/-- The nodes of an expression that may be missing. -/
def Expr.nodesOfOption : Option Expr → List Expr
  | none => []
  | some e => e.nodes

end

namespace Expr

theorem nodesOfList_eq (exprs : List Expr) : nodesOfList exprs = exprs.flatMap nodes := by
  induction exprs with
  | nil => rfl
  | cons e rest ih => rw [nodesOfList, ih, List.flatMap_cons]

theorem nodesOfOption_eq (e : Option Expr) : nodesOfOption e = e.toList.flatMap nodes := by
  cases e with
  | none => rfl
  | some e => simp [nodesOfOption]

theorem nodes_eq (e : Expr) : e.nodes = e :: e.children.flatMap nodes := by
  cases e <;> simp [nodes, children, nodesOfList_eq, nodesOfOption_eq]

/-- Every node of the expression satisfies `q`. -/
def Every (q : Expr → Prop) (e : Expr) : Prop := ∀ n ∈ e.nodes, q n

theorem every_iff {q : Expr → Prop} {e : Expr} :
    e.Every q ↔ q e ∧ ∀ s ∈ e.children, s.Every q := by
  unfold Every
  rw [nodes_eq]
  simp only [List.mem_cons, List.mem_flatMap, forall_eq_or_imp, forall_exists_index, and_imp]
  exact and_congr_right fun _ => ⟨fun h s hs n => h n s hs, fun h n s hs => h s hs n⟩

theorem length_nodes_lt_of_mem_children {s e : Expr} (hs : s ∈ e.children) :
    s.nodes.length < e.nodes.length := by
  obtain ⟨before, after, hsplit⟩ := List.append_of_mem hs
  rw [nodes_eq e, hsplit]
  simp only [List.flatMap_append, List.flatMap_cons, List.length_cons, List.length_append]
  omega

/-- A fact about an expression may be proved from the same fact about its children. -/
theorem children_induction {motive : Expr → Prop}
    (step : ∀ e, (∀ s ∈ e.children, motive s) → motive e) (e : Expr) : motive e :=
  step e fun s _ => children_induction step s
termination_by e.nodes.length
decreasing_by exact length_nodes_lt_of_mem_children ‹_›

end Expr

mutual

/-- The expressions that stand directly in a statement or in a statement inside it. -/
def Stmt.exprs : Stmt → List Expr
  | .empty _ | .breakTo .. | .continueTo .. | .unsupported .. => []
  | .expr _ e | .throwValue _ e => [e]
  | .decl _ vars => vars.filterMap Declarator.init
  | .block _ stmts => Stmt.exprsOfList stmts
  | .ifElse _ condition thenBranch elseBranch =>
    condition :: thenBranch.exprs ++ Stmt.exprsOfOption elseBranch
  | .whileLoop _ condition body => condition :: body.exprs
  | .doLoop _ body condition => body.exprs ++ [condition]
  | .forLoop _ init condition update body =>
    Stmt.exprsOfList init ++ condition.toList ++ update ++ body.exprs
  | .returnValue _ value => value.toList
  | .labeled _ _ body => body.exprs

/-- The expressions of several statements. -/
def Stmt.exprsOfList : List Stmt → List Expr
  | [] => []
  | s :: rest => s.exprs ++ Stmt.exprsOfList rest

/-- The expressions of a statement that may be missing. -/
def Stmt.exprsOfOption : Option Stmt → List Expr
  | none => []
  | some s => s.exprs

end

theorem forall_mem_right {α β : Type} {R : α → β → Prop} {P : β → Prop} {as : List α} {bs : List β}
    (h : as.Forall₂ R bs) (hP : ∀ a ∈ as, ∀ b, R a b → P b) : ∀ b ∈ bs, P b := by
  induction h with
  | nil => nofun
  | cons hab _ ih =>
      obtain ⟨hhead, htail⟩ := List.forall_mem_cons.1 hP
      exact List.forall_mem_cons.2 ⟨hhead _ hab, ih htail⟩

theorem forall_mem_of_rel {α β : Type} {R : α → β → Prop} {P : β → Prop} {a : Option α}
    {b : Option β} (h : Option.Rel R a b) (hP : ∀ x y, R x y → P y) : ∀ y ∈ b, P y := by
  cases h with
  | none => nofun
  | some hxy =>
      rintro _ ⟨⟩
      exact hP _ _ hxy

theorem rel_flip {α β : Type} {R : α → β → Prop} {a : Option α} {b : Option β}
    (h : Option.Rel R a b) : Option.Rel (flip R) b a := by
  cases h with
  | none => exact .none
  | some hxy => exact .some hxy

end Breakpoint
