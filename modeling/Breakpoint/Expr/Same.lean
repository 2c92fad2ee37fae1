import Breakpoint.Expr

/-! Equality of source expressions. It is structural and includes types, texts, spans and
declarations; floating-point constants are compared as numbers, so an expression with a not-a-number
differs from itself. -/

namespace Breakpoint

/-- Equality of constants that may be missing. -/
def Constant.sameOption : Option Constant → Option Constant → Bool
  | none, none => true
  | some a, some b => a.numericEq b
  | _, _ => false

/-- Equality of local variables. -/
def LocalDecl.same (a b : LocalDecl) : Bool :=
  a.name == b.name && a.ty == b.ty && a.parameter? == b.parameter? && a.origin == b.origin &&
    a.modifiers == b.modifiers && Constant.sameOption a.constant? b.constant? && a.span == b.span

/-- Equality of declarations. -/
def Decl.same : Decl → Decl → Bool
  | .localVar a, .localVar b => a.same b
  | .field a, .field b => a == b
  | .method a, .method b => a == b
  | .type a, .type b => a == b
  | .unresolved, .unresolved => true
  | _, _ => false

mutual

/-- Equality of expressions. -/
def Expr.same : Expr → Expr → Bool
  | .literal m a, other => match other with
    | .literal n b => m == n && a.numericEq b
    | _ => false
  | .name m p x c, other => match other with
    | .name n q y d => m == n && Expr.sameOption p q && x == y && c.same d
    | _ => false
  | .thisRef m p, other => match other with
    | .thisRef n q => m == n && p == q
    | _ => false
  | .superRef m p, other => match other with
    | .superRef n q => m == n && p == q
    | _ => false
  | .classLiteral m t, other => match other with
    | .classLiteral n u => m == n && t == u
    | _ => false
  | .paren m a, other => match other with
    | .paren n b => m == n && a.same b
    | _ => false
  | .chain m xs o, other => match other with
    | .chain n ys p => m == n && Expr.sameList xs ys && o == p
    | _ => false
  | .unary m o a, other => match other with
    | .unary n p b => m == n && o == p && a.same b
    | _ => false
  | .step m o f a, other => match other with
    | .step n p g b => m == n && o == p && f == g && a.same b
    | _ => false
  | .assign m o a x, other => match other with
    | .assign n p b y => m == n && o == p && a.same b && x.same y
    | _ => false
  | .conditional m c x y, other => match other with
    | .conditional n d z w => m == n && c.same d && x.same z && y.same w
    | _ => false
  | .instanceOf m a t, other => match other with
    | .instanceOf n b u => m == n && a.same b && t == u
    | _ => false
  | .cast m t a, other => match other with
    | .cast n u b => m == n && t == u && a.same b
    | _ => false
  | .index m a i, other => match other with
    | .index n b j => m == n && a.same b && i.same j
    | _ => false
  | .call m p x c xs, other => match other with
    | .call n q y d ys => m == n && Expr.sameOption p q && x == y && c == d && Expr.sameList xs ys
    | _ => false
  | .newInstance m c k p xs f, other => match other with
    | .newInstance n d l q ys g =>
      m == n && c == d && k == l && Expr.sameOption p q && Expr.sameList xs ys && f == g
    | _ => false
  | .newArray m xs a, other => match other with
    | .newArray n ys b => m == n && Expr.sameList xs ys && Expr.sameOption a b
    | _ => false
  | .braces m xs, other => match other with
    | .braces n ys => m == n && Expr.sameList xs ys
    | _ => false
  | .lambda m, other => match other with
    | .lambda n => m == n
    | _ => false
  | .methodRef m, other => match other with
    | .methodRef n => m == n
    | _ => false

/-- Equality of lists of expressions. -/
def Expr.sameList : List Expr → List Expr → Bool
  | [], [] => true
  | a :: xs, b :: ys => a.same b && Expr.sameList xs ys
  | _, _ => false

/-- Equality of expressions that may be missing. -/
def Expr.sameOption : Option Expr → Option Expr → Bool
  | none, none => true
  | some a, some b => a.same b
  | _, _ => false

end

end Breakpoint
