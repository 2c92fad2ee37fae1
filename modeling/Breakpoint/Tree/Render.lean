import Breakpoint.Sexp
import Breakpoint.Tree

/-! Trees as s-expressions. The text is meant for reading: it leaves out the type of a constant, all
of a method but its name, and the difference between the two kinds of plain variable. -/

namespace Breakpoint

/-- A label before the parts of a statement. -/
def labelAtoms (label : Option String) : List Sexp :=
  label.toList.map fun l => Sexp.atom ("@" ++ l)

/-- The name of a local variable, marked if it is a parameter or looked up later. -/
def Slot.mark (name : String) : Slot → String
  | frame | fragment => name
  | parameter index => name ++ "#" ++ toString index.toNat
  | deferred => name ++ "?"

mutual

/-- The s-expression of a tree. -/
def Tree.sexp : Tree → Sexp
  | .literal value _ => .atom value.render
  | .localVar name slot => .atom (slot.mark name)
  | .field object name .any => .form "." [object.sexp, .atom name]
  | .field object name (.declaredBy c) => .form "." [object.sexp, .atom name, .atom c.render]
  | .thisAt depth => .form "this" [.atom (toString depth)]
  | .superAt depth => .form "super" [.atom (toString depth)]
  | .typeRef ty => .form "type" [.atom ty.render]
  | .classObject ty => .form "class" [.atom ty.render]
  | .call object method args => .form "call" (object.sexp :: .atom method.name :: Tree.sexps args)
  | .newInstance c _ args => .form "new" (.atom c.render :: Tree.sexps args)
  | .newArray ty dimension elements =>
    .form "new-array" (.atom ty.render :: Tree.sexpOption dimension ++ Tree.sexpElements elements)
  | .element array index => .form "[]" [array.sexp, index.sexp]
  | .assign target value yieldsOld =>
    .form (if yieldsOld then "=post" else "=") [target.sexp, value.sexp]
  | .binary op left right ty => .form (op.symbol ++ ":" ++ ty.render) [left.sexp, right.sexp]
  | .unary op operand ty => .form (op.symbol ++ ":" ++ ty.render) [operand.sexp]
  | .conditional condition thenValue elseValue =>
    .form "?" [condition.sexp, thenValue.sexp, elseValue.sexp]
  | .instanceOf operand ty => .form "instanceof" [operand.sexp, .atom ty.render]
  | .cast operand ty => .form "cast" [.atom ty.render, operand.sexp]
  | .box operand kind => .form "box" [.atom kind.keyword, operand.sexp]
  | .unbox operand kind => .form "unbox" [.atom kind.keyword, operand.sexp]
  | .pin operand => .form "pin" [operand.sexp]
  | .block stmts => .form "block" (Tree.sexps stmts)
  | .declare locals => .form "decl" (LocalInit.sexps locals)
  | .ifElse label condition thenBranch elseBranch =>
    .form "if" (labelAtoms label ++ condition.sexp :: thenBranch.sexp :: Tree.sexpOption elseBranch)
  | .whileLoop label condition body =>
    .form "while" (labelAtoms label ++ [condition.sexp, body.sexp])
  | .doLoop label body condition => .form "do" (labelAtoms label ++ [body.sexp, condition.sexp])
  | .forLoop label init condition update body =>
    .form "for" (labelAtoms label ++
      [.group (Tree.sexps init), Tree.sexpCondition condition, .group (Tree.sexps update),
        body.sexp])
  | .breakTo label => .form "break" (label.toList.map Sexp.atom)
  | .continueTo label => .form "continue" (label.toList.map Sexp.atom)
  | .returnValue value => .form "return" (Tree.sexpOption value)
  | .throwValue value => .form "throw" [value.sexp]
  | .fragment stmts => .form "fragment" (Tree.sexps stmts)

/-- The s-expressions of several trees. -/
def Tree.sexps : List Tree → List Sexp
  | [] => []
  | t :: rest => t.sexp :: Tree.sexps rest

/-- The s-expression of a tree that may be missing. -/
def Tree.sexpOption : Option Tree → List Sexp
  | none => []
  | some t => [t.sexp]

/-- The elements of a new array, in braces, if they are given. -/
def Tree.sexpElements : Option (List Tree) → List Sexp
  | none => []
  | some elements => [.braces (Tree.sexps elements)]

/-- The condition of a loop; one that is missing always holds. -/
def Tree.sexpCondition : Option Tree → Sexp
  | none => .atom "true"
  | some condition => condition.sexp

/-- A declared variable: its type, name, zero value and initialisation. -/
def LocalInit.sexp : LocalInit → Sexp
  | .mk name ty zero init => .form ty.render (.atom name :: zero.sexp :: Tree.sexpOption init)

/-- Several declared variables. -/
def LocalInit.sexps : List LocalInit → List Sexp
  | [] => []
  | entry :: rest => entry.sexp :: LocalInit.sexps rest

end

/-- The text of a tree. -/
def Tree.render (t : Tree) : String := t.sexp.render

end Breakpoint
