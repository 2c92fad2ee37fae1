import Breakpoint.Constant
import Breakpoint.Excerpt

/-! Declarations that names, calls and instance creations refer to. -/

namespace Breakpoint

/-- The modifiers written on a declaration. -/
structure Modifiers where
  isPublic : Bool := false
  isProtected : Bool := false
  isPrivate : Bool := false
  isStatic : Bool := false
  isFinal : Bool := false
  isAbstract : Bool := false
  isSynchronized : Bool := false
deriving DecidableEq, Repr, Inhabited

/-- The modifiers as a number, the first of them in the lowest bit. -/
def Modifiers.bits (m : Modifiers) : Nat :=
  [m.isSynchronized, m.isAbstract, m.isFinal, m.isStatic, m.isPrivate, m.isProtected,
    m.isPublic].foldl (fun bits flag => 2 * bits + flag.toNat) 0

/-- Where a local variable was declared: in a method of a class, or in the code being compiled. -/
inductive LocalOrigin where
  | method (c : ClassId)
  | fragment
deriving DecidableEq, Repr, Inhabited

/-- A local variable, or the parameter of the given index. -/
structure LocalDecl where
  name : String
  ty : Ty
  parameter? : Option UInt32 := none
  origin : LocalOrigin := .fragment
  modifiers : Modifiers := {}
  constant? : Option Constant := none
  span : Span := {}
deriving Repr, Inhabited

/-- The same local, final and with a constant value known at compile time. -/
def LocalDecl.withConstant (d : LocalDecl) (value : Constant) : LocalDecl :=
  { d with modifiers := { d.modifiers with isFinal := true }, constant? := some value }

/-- A field of a class. -/
structure FieldDecl where
  name : String
  ty : Ty
  declaring : ClassId
  modifiers : Modifiers := {}
deriving DecidableEq, Repr, Inhabited

/-- A method or constructor. If `varargs` is set, the last parameter has an array type and collects
any number of arguments. -/
structure MethodDecl where
  name : String
  declaring : ClassId
  params : List Ty := []
  returnType : Ty := .void
  varargs : Bool := false
  modifiers : Modifiers := {}
deriving DecidableEq, Repr, Inhabited

/-- What a name refers to. -/
inductive Decl where
  | localVar (d : LocalDecl)
  | field (d : FieldDecl)
  | method (d : MethodDecl)
  | type (t : Ty)
  | unresolved
deriving Repr, Inhabited

end Breakpoint
