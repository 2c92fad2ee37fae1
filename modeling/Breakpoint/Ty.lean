import Breakpoint.ClassId

/-! Static types: the eight primitive kinds with their promotions and wrapper classes, and the types
built from kinds and classes. -/

namespace Breakpoint

/-- The primitive kinds. -/
inductive Kind where
  | boolean
  | byte
  | short
  | char
  | int
  | long
  | float
  | double
deriving DecidableEq, Repr, Inhabited

namespace Kind

/-- Every kind, in declaration order. -/
def all : List Kind := [.boolean, .byte, .short, .char, .int, .long, .float, .double]

/-- The keyword of a kind. -/
def keyword : Kind → String
  | boolean => "boolean"
  | byte => "byte"
  | short => "short"
  | char => "char"
  | int => "int"
  | long => "long"
  | float => "float"
  | double => "double"

/-- The class that boxes a kind. -/
def wrapper : Kind → ClassId
  | boolean => ClassId.boolean
  | byte => ClassId.byte
  | short => ClassId.short
  | char => ClassId.character
  | int => ClassId.integer
  | long => ClassId.long
  | float => ClassId.float
  | double => ClassId.double

/-- The kind that a class boxes, if it is a wrapper class. -/
def ofWrapper? (c : ClassId) : Option Kind := all.find? fun kind => kind.wrapper == c

/-- Every kind but `boolean`. -/
def isNumeric (k : Kind) : Bool := k != .boolean

/-- The kinds without fractions. -/
def isIntegral : Kind → Bool
  | byte | short | char | int | long => true
  | boolean | float | double => false

/-- The kind that unary promotion widens to; only the kinds narrower than `int` widen. -/
def widened? : Kind → Option Kind
  | byte | short | char => some int
  | boolean | int | long | float | double => none

/-- Unary promotion: the kinds narrower than `int` become `int`, the others stay. -/
def promoted (k : Kind) : Kind := k.widened?.getD k

/-- Binary promotion: the widest of the two kinds and `int`, in the order `double`, `float`, `long`,
`int`. -/
def join (l r : Kind) : Kind :=
  if l = double ∨ r = double then double
  else if l = float ∨ r = float then float
  else if l = long ∨ r = long then long
  else int

end Kind

/-- What an array is made of once all its dimensions are taken off. -/
inductive Element where
  | prim (kind : Kind)
  | ofClass (c : ClassId)
deriving DecidableEq, Repr

/-- A static type. An array of no dimensions is malformed but can be written down. -/
inductive Ty where
  | void
  | null
  | prim (kind : Kind)
  | ofClass (c : ClassId)
  | array (element : Element) (dims : UInt8)
deriving DecidableEq, Repr, Inhabited

/-- The element as a type of its own. -/
def Element.toTy : Element → Ty
  | prim kind => .prim kind
  | ofClass c => .ofClass c

namespace Ty

def boolean : Ty := .prim .boolean
def int : Ty := .prim .int
def object : Ty := .ofClass ClassId.object
def string : Ty := .ofClass ClassId.string

/-- The wrapper class of a kind as a type. -/
def boxed (kind : Kind) : Ty := .ofClass kind.wrapper

/-- The array type whose components have type `t`, for a `t` that arrays can hold and that leaves
room for one more dimension. -/
def arrayOf? : Ty → Option Ty
  | void | null => none
  | prim kind => some (.array (.prim kind) 1)
  | ofClass c => some (.array (.ofClass c) 1)
  | array element dims => if dims = 255 then none else some (.array element (dims + 1))

/-- The type of an array's components. -/
def component? : Ty → Option Ty
  | array element dims =>
    if dims = 0 then none
    else if dims = 1 then some element.toTy
    else some (.array element (dims - 1))
  | _ => none

/-- The kind of a primitive type. -/
def prim? : Ty → Option Kind
  | prim kind => some kind
  | _ => none

/-- The class of a class type. -/
def class? : Ty → Option ClassId
  | ofClass c => some c
  | _ => none

/-- The kind that a wrapper class boxes. -/
def unboxed? : Ty → Option Kind
  | ofClass c => Kind.ofWrapper? c
  | _ => none

/-- The kind of a type after unboxing; primitive types keep theirs. -/
def kind? (t : Ty) : Option Kind := t.prim?.or t.unboxed?

/-- Numeric after unboxing. -/
def isNumeric (t : Ty) : Bool := t.kind?.any Kind.isNumeric

/-- Boolean after unboxing. -/
def isBoolean (t : Ty) : Bool := t.kind? == some .boolean

def isPrim : Ty → Bool
  | prim _ => true
  | _ => false

/-- A class type: neither the null type nor an array. -/
def isClass : Ty → Bool
  | ofClass _ => true
  | _ => false

/-- Class types, arrays and the null type. -/
def isReference : Ty → Bool
  | ofClass _ | array _ _ | null => true
  | void | prim _ => false

def isNull : Ty → Bool
  | null => true
  | _ => false

def isArray : Ty → Bool
  | array _ _ => true
  | _ => false

def isString (t : Ty) : Bool := t == string

/-- A pair of brackets for each dimension. -/
def brackets (dims : UInt8) : String :=
  String.ofList (List.replicate dims.toNat ['[', ']']).flatten

/-- The text of a type, with `className` for the names of classes. -/
def renderWith (className : ClassId → String) : Ty → String
  | void => "void"
  | null => "null"
  | prim kind => kind.keyword
  | ofClass c => className c
  | array (.prim kind) dims => kind.keyword ++ brackets dims
  | array (.ofClass c) dims => className c ++ brackets dims

/-- The text of a type, with class codes for names. -/
def render (t : Ty) : String := t.renderWith ClassId.render

end Ty

end Breakpoint
