import Breakpoint.Tree

/-! Equality of compiled trees. It is structural, with constants compared so that every constant
equals itself, whatever the payload of a not-a-number. -/

namespace Breakpoint

mutual

/-- Equality of trees. -/
def Tree.same : Tree → Tree → Bool
  | .literal a t, other => match other with
    | .literal b u => a.orderedEq b && t == u
    | _ => false
  | .localVar m r, other => match other with
    | .localVar n s => m == n && r == s
    | _ => false
  | .field a m f, other => match other with
    | .field b n g => a.same b && m == n && f == g
    | _ => false
  | .thisAt m, other => match other with
    | .thisAt n => m == n
    | _ => false
  | .superAt m, other => match other with
    | .superAt n => m == n
    | _ => false
  | .typeRef t, other => match other with
    | .typeRef u => t == u
    | _ => false
  | .classObject t, other => match other with
    | .classObject u => t == u
    | _ => false
  | .call a m xs, other => match other with
    | .call b n ys => a.same b && m == n && Tree.sameList xs ys
    | _ => false
  | .newInstance c m xs, other => match other with
    | .newInstance d n ys => c == d && m == n && Tree.sameList xs ys
    | _ => false
  | .newArray t a xs, other => match other with
    | .newArray u b ys => t == u && Tree.sameOption a b && Tree.sameElements xs ys
    | _ => false
  | .element a i, other => match other with
    | .element b j => a.same b && i.same j
    | _ => false
  | .assign a x p, other => match other with
    | .assign b y q => a.same b && x.same y && p == q
    | _ => false
  | .binary o a x t, other => match other with
    | .binary p b y u => o == p && a.same b && x.same y && t == u
    | _ => false
  | .unary o a t, other => match other with
    | .unary p b u => o == p && a.same b && t == u
    | _ => false
  | .conditional c x y, other => match other with
    | .conditional d z w => c.same d && x.same z && y.same w
    | _ => false
  | .instanceOf a t, other => match other with
    | .instanceOf b u => a.same b && t == u
    | _ => false
  | .cast a t, other => match other with
    | .cast b u => a.same b && t == u
    | _ => false
  | .box a k, other => match other with
    | .box b l => a.same b && k == l
    | _ => false
  | .unbox a k, other => match other with
    | .unbox b l => a.same b && k == l
    | _ => false
  | .pin a, other => match other with
    | .pin b => a.same b
    | _ => false
  | .block xs, other => match other with
    | .block ys => Tree.sameList xs ys
    | _ => false
  | .declare xs, other => match other with
    | .declare ys => LocalInit.sameList xs ys
    | _ => false
  | .ifElse l c x y, other => match other with
    | .ifElse m d z w => l == m && c.same d && x.same z && Tree.sameOption y w
    | _ => false
  | .whileLoop l c x, other => match other with
    | .whileLoop m d y => l == m && c.same d && x.same y
    | _ => false
  | .doLoop l x c, other => match other with
    | .doLoop m y d => l == m && x.same y && c.same d
    | _ => false
  | .forLoop l i c u x, other => match other with
    | .forLoop m j d v y =>
      l == m && Tree.sameList i j && Tree.sameOption c d && Tree.sameList u v && x.same y
    | _ => false
  | .breakTo l, other => match other with
    | .breakTo m => l == m
    | _ => false
  | .continueTo l, other => match other with
    | .continueTo m => l == m
    | _ => false
  | .returnValue a, other => match other with
    | .returnValue b => Tree.sameOption a b
    | _ => false
  | .throwValue a, other => match other with
    | .throwValue b => a.same b
    | _ => false
  | .fragment xs, other => match other with
    | .fragment ys => Tree.sameList xs ys
    | _ => false
termination_by structural t => t

/-- Equality of lists of trees. -/
def Tree.sameList : List Tree → List Tree → Bool
  | [], [] => true
  | a :: xs, b :: ys => a.same b && Tree.sameList xs ys
  | _, _ => false
termination_by structural t => t

/-- Equality of trees that may be missing. -/
def Tree.sameOption : Option Tree → Option Tree → Bool
  | none, none => true
  | some a, some b => a.same b
  | _, _ => false
termination_by structural t => t

/-- Equality of lists that may be missing. -/
def Tree.sameElements : Option (List Tree) → Option (List Tree) → Bool
  | none, none => true
  | some xs, some ys => Tree.sameList xs ys
  | _, _ => false
termination_by structural t => t

/-- Equality of declared variables. -/
def LocalInit.same : LocalInit → LocalInit → Bool
  | .mk m t a x, .mk n u b y => m == n && t == u && a.same b && Tree.sameOption x y
termination_by structural t => t

/-- Equality of lists of declared variables. -/
def LocalInit.sameList : List LocalInit → List LocalInit → Bool
  | [], [] => true
  | a :: xs, b :: ys => a.same b && LocalInit.sameList xs ys
  | _, _ => false
termination_by structural t => t

end

end Breakpoint
