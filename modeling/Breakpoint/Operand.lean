import Breakpoint.Tree

/-! Operands and the conversions of a single operand. An operand is a tree together with the static
type of its value. No conversion fails: an operand that needs none comes back as it was. -/

namespace Breakpoint

/-- A tree and the static type of its value. -/
structure Operand where
  tree : Tree
  ty : Ty

namespace Operand

/-- A cast to type `t`, left out if the operand has that type. -/
def castTo (x : Operand) (t : Ty) : Operand :=
  if x.ty = t then x else ⟨.cast x.tree t, t⟩

/-- The operand in the wrapper of `kind`. -/
def boxAs (x : Operand) (kind : Kind) : Operand := ⟨.box x.tree kind, .boxed kind⟩

/-- The operand out of the wrapper of `kind`. -/
def unboxAs (x : Operand) (kind : Kind) : Operand := ⟨.unbox x.tree kind, .prim kind⟩

/-- The operand out of its wrapper, if its type is a wrapper class. -/
def unwrap (x : Operand) : Operand :=
  match x.ty.unboxed? with
  | some kind => x.unboxAs kind
  | none => x

/-- Unary numeric promotion: a numeric operand is unwrapped and brought to at least `int`; any other
operand is left alone. -/
def promote (x : Operand) : Operand :=
  if x.ty.isNumeric then
    match x.unwrap.ty.prim?.bind Kind.widened? with
    | some kind => x.unwrap.castTo (.prim kind)
    | none => x.unwrap
  else x

/-- Conversion for storing the operand in a place of type `target`. A primitive value is brought to
the kind of a wrapper and boxed, or boxed as its own kind for any other class; a wrapper is unboxed
for a primitive place; between primitive types there is a cast. Between references nothing is done.
-/
def assignTo (x : Operand) (target : Ty) : Operand :=
  if x.ty = target then x
  else
    match target, x.ty with
    | .ofClass _, .prim kind =>
      let wrapped := target.unboxed?.getD kind
      (x.castTo (.prim wrapped)).boxAs wrapped
    | .prim _, .ofClass _ =>
      match x.ty.unboxed? with
      | some kind => (x.unboxAs kind).castTo target
      | none => x
    | .prim _, .prim _ => x.castTo target
    | _, _ => x

/-- Conversion for an explicit cast to `target`. Between primitive types and classes the value goes
through a wrapper; in every other case there is a plain cast. -/
def convertTo (x : Operand) (target : Ty) : Operand :=
  if x.ty = target then x
  else
    match target, x.ty with
    | .prim kind, .ofClass _ =>
      match x.ty.unboxed? with
      | some unboxed => (x.unboxAs unboxed).castTo target
      | none => ((x.castTo (.boxed kind)).unboxAs kind).castTo target
    | .ofClass _, .prim kind =>
      match target.unboxed? with
      | some wrapped => ⟨.box (x.castTo (.prim wrapped)).tree wrapped, target⟩
      | none => (x.boxAs kind).castTo target
    | _, _ => x.castTo target

end Operand

end Breakpoint
