/-! S-expressions and their text on one line. -/

namespace Breakpoint

/-- An atom, a form with a head, or a list of items between parentheses or braces. -/
inductive Sexp where
  | atom (text : String)
  | form (head : String) (args : List Sexp)
  | group (items : List Sexp)
  | braces (items : List Sexp)

namespace Sexp

mutual

/-- The characters of an s-expression. A list without a head has a blank on the inside of either
bracket. -/
def chars : Sexp → List Char
  | atom text => text.toList
  | form head args => '(' :: head.toList ++ spaced args ++ [')']
  | group items => '(' :: spaced items ++ [' ', ')']
  | braces items => '\x7b' :: spaced items ++ [' ', '\x7d']

/-- The characters of several s-expressions, each after a blank. -/
def spaced : List Sexp → List Char
  | [] => []
  | s :: rest => ' ' :: s.chars ++ spaced rest

end

/-- The text of an s-expression. -/
def render (s : Sexp) : String := String.ofList s.chars

end Sexp

end Breakpoint
