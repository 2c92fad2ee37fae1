import Breakpoint.Hierarchy

/-! The place where evaluation is suspended, as far as classes are concerned: the classes around it
and whether there is a current instance. -/

namespace Breakpoint

/-- Whether the suspended code runs on an instance. -/
inductive Activation where
  | onInstance
  | static
deriving DecidableEq, Repr, Inhabited

/-- The classes around the suspended code, innermost first. The class at index `i` is the one
reached from the current instance by `i` steps to the enclosing instance. -/
structure Position where
  classes : List ClassId
  activation : Activation
deriving DecidableEq, Repr

namespace Position

/-- The position inside `innermost`, with the classes that enclose it according to `h`. -/
def within (h : Hierarchy) (innermost : ClassId) (activation : Activation) : Position :=
  ⟨h.enclosingChain innermost, activation⟩

/-- A position outside of every class. -/
def detached : Position := ⟨[], .static⟩

/-- The innermost class. -/
def current? (p : Position) : Option ClassId := p.classes.head?

/-- Whether there is a current instance. -/
def hasThis (p : Position) : Bool := p.activation == .onInstance && !p.classes.isEmpty

end Position

end Breakpoint
