import Breakpoint.Tree

/-! The nodes of a tree, in the order in which they are written: a node, then what is below it from
left to right. -/

namespace Breakpoint

mutual

/-- A tree and all trees below it. -/
def Tree.nodes (t : Tree) : List Tree :=
  t :: match t with
    | .literal .. | .localVar .. | .thisAt _ | .superAt _ | .typeRef _ | .classObject _ | .breakTo _
    | .continueTo _ => []
    | .field object _ _ => object.nodes
    | .call object _ args => object.nodes ++ Tree.nodesOfList args
    | .newInstance _ _ args => Tree.nodesOfList args
    | .newArray _ dimension elements =>
      Tree.nodesOfOption dimension ++ Tree.nodesOfListOption elements
    | .element array index => array.nodes ++ index.nodes
    | .assign target value _ => target.nodes ++ value.nodes
    | .binary _ left right _ => left.nodes ++ right.nodes
    | .unary _ operand _ | .instanceOf operand _ | .cast operand _ | .box operand _
    | .unbox operand _ | .pin operand | .throwValue operand => operand.nodes
    | .conditional condition thenValue elseValue =>
      condition.nodes ++ thenValue.nodes ++ elseValue.nodes
    | .block stmts | .fragment stmts => Tree.nodesOfList stmts
    | .declare locals => LocalInit.nodesOfList locals
    | .ifElse _ condition thenBranch elseBranch =>
      condition.nodes ++ thenBranch.nodes ++ Tree.nodesOfOption elseBranch
    | .whileLoop _ condition body => condition.nodes ++ body.nodes
    | .doLoop _ body condition => body.nodes ++ condition.nodes
    | .forLoop _ init condition update body =>
      Tree.nodesOfList init ++ Tree.nodesOfOption condition ++ Tree.nodesOfList update ++ body.nodes
    | .returnValue value => Tree.nodesOfOption value

/-- The nodes of several trees, one tree after the other. -/
def Tree.nodesOfList : List Tree → List Tree
  | [] => []
  | t :: rest => t.nodes ++ Tree.nodesOfList rest

/-- The nodes of a tree that may be missing. -/
def Tree.nodesOfOption : Option Tree → List Tree
  | none => []
  | some t => t.nodes

/-- The nodes of a list that may be missing. -/
def Tree.nodesOfListOption : Option (List Tree) → List Tree
  | none => []
  | some trees => Tree.nodesOfList trees

/-- The nodes of a declared variable: its zero value and its initialisation. -/
def LocalInit.nodes : LocalInit → List Tree
  | .mk _ _ zero init => zero.nodes ++ Tree.nodesOfOption init

/-- The nodes of several declared variables. -/
def LocalInit.nodesOfList : List LocalInit → List Tree
  | [] => []
  | entry :: rest => entry.nodes ++ LocalInit.nodesOfList rest

end

/-- The number of nodes. -/
def Tree.size (t : Tree) : Nat := t.nodes.length

end Breakpoint
