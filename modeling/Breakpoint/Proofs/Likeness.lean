import Breakpoint.Operand.Pair
import Mathlib.Data.List.Forall2

/-!
Like trees. A relation between trees may be kept by the nodes that expressions bring into a tree. No
conversion looks at the tree it converts, so conversions of operands with related trees are related
again. One such relation is that of trees that are the same but for some places: at such a place the
two trees have parts that are related in a given way, and everywhere else they have the same nodes.
-/

namespace Breakpoint

/-- The relation is kept by the nodes that expressions bring into a tree. -/
class Tree.Congruence (R : Tree → Tree → Prop) : Prop where
  one : R (.literal (.int 1) .int) (.literal (.int 1) .int)
  thisAt (depth : Nat) : R (.thisAt depth) (.thisAt depth)
  superAt (depth : Nat) : R (.superAt depth) (.superAt depth)
  typeRef (ty : Ty) : R (.typeRef ty) (.typeRef ty)
  classObject (ty : Ty) : R (.classObject ty) (.classObject ty)
  field {a b : Tree} {name : String} {filter : FieldFilter} (h : R a b) :
    R (.field a name filter) (.field b name filter)
  call {a b : Tree} {m : MethodRef} {xs ys : List Tree} (hobject : R a b)
    (hargs : List.Forall₂ R xs ys) : R (.call a m xs) (.call b m ys)
  newInstance {c : ClassId} {m : MethodRef} {xs ys : List Tree} (h : List.Forall₂ R xs ys) :
    R (.newInstance c m xs) (.newInstance c m ys)
  newArray {ty : Ty} {a b : Option Tree} {xs ys : Option (List Tree)}
    (hdimension : Option.Rel R a b) (helements : Option.Rel (List.Forall₂ R) xs ys) :
    R (.newArray ty a xs) (.newArray ty b ys)
  element {a b i j : Tree} (harray : R a b) (hindex : R i j) : R (.element a i) (.element b j)
  assign {a b x y : Tree} {old : Bool} (htarget : R a b) (hvalue : R x y) :
    R (.assign a x old) (.assign b y old)
  binary {op : BinaryOp} {a b x y : Tree} {ty : Ty} (hleft : R a b) (hright : R x y) :
    R (.binary op a x ty) (.binary op b y ty)
  unary {op : UnaryOp} {a b : Tree} {ty : Ty} (h : R a b) : R (.unary op a ty) (.unary op b ty)
  conditional {c d a b x y : Tree} (hcondition : R c d) (hthen : R a b) (helse : R x y) :
    R (.conditional c a x) (.conditional d b y)
  instanceOf {a b : Tree} {ty : Ty} (h : R a b) : R (.instanceOf a ty) (.instanceOf b ty)
  cast {a b : Tree} {ty : Ty} (h : R a b) : R (.cast a ty) (.cast b ty)
  box {a b : Tree} {kind : Kind} (h : R a b) : R (.box a kind) (.box b kind)
  unbox {a b : Tree} {kind : Kind} (h : R a b) : R (.unbox a kind) (.unbox b kind)

/-- Operands of one type with related trees. -/
structure Operand.Related (R : Tree → Tree → Prop) (x y : Operand) : Prop where
  ty : x.ty = y.ty
  tree : R x.tree y.tree

namespace Operand.Related

open Tree.Congruence

variable {R : Tree → Tree → Prop} [Tree.Congruence R] {x y : Operand}

theorem castTo (h : x.Related R y) (ty : Ty) : (x.castTo ty).Related R (y.castTo ty) := by
  unfold Operand.castTo
  rw [h.ty]
  split
  · exact h
  · exact ⟨rfl, cast h.tree⟩

theorem boxAs (h : x.Related R y) (kind : Kind) : (x.boxAs kind).Related R (y.boxAs kind) :=
  ⟨rfl, box h.tree⟩

theorem unboxAs (h : x.Related R y) (kind : Kind) : (x.unboxAs kind).Related R (y.unboxAs kind) :=
  ⟨rfl, unbox h.tree⟩

theorem unwrap (h : x.Related R y) : x.unwrap.Related R y.unwrap := by
  unfold Operand.unwrap
  rw [h.ty]
  split
  · exact h.unboxAs _
  · exact h

theorem promote (h : x.Related R y) : x.promote.Related R y.promote := by
  unfold Operand.promote
  rw [h.ty, h.unwrap.ty]
  split
  · split
    · exact h.unwrap.castTo _
    · exact h.unwrap
  · exact h

theorem assignTo (h : x.Related R y) (target : Ty) :
    (x.assignTo target).Related R (y.assignTo target) := by
  unfold Operand.assignTo
  rw [h.ty]
  split
  · exact h
  · split
    · exact (h.castTo _).boxAs _
    · split
      · exact (h.unboxAs _).castTo _
      · exact h
    · exact h.castTo _
    · exact h

theorem convertTo (h : x.Related R y) (target : Ty) :
    (x.convertTo target).Related R (y.convertTo target) := by
  unfold Operand.convertTo
  rw [h.ty]
  split
  · exact h
  · split
    · split
      · exact (h.unboxAs _).castTo _
      · exact ((h.castTo _).unboxAs _).castTo _
    · split
      · exact ⟨rfl, box (h.castTo _).tree⟩
      · exact (h.boxAs _).castTo _
    · exact h.castTo _

/-- The operands of a binary operation are converted by their types alone. -/
theorem convert {left left' right right' : Operand} (hleft : left.Related R left')
    (hright : right.Related R right') (op : BinaryOp) :
    (op.convert left right).1.Related R (op.convert left' right').1 ∧
      (op.convert left right).2.Related R (op.convert left' right').2 := by
  unfold BinaryOp.convert
  rw [hleft.ty, hright.ty]
  generalize hpair : (if op.unwraps left'.ty right'.ty then (left.unwrap, right.unwrap)
    else (left, right)) = pair
  generalize hpair' : (if op.unwraps left'.ty right'.ty then (left'.unwrap, right'.unwrap)
    else (left', right')) = pair'
  obtain ⟨l, r⟩ := pair
  obtain ⟨l', r'⟩ := pair'
  have hlr : l.Related R l' ∧ r.Related R r' := by
    by_cases hunwraps : op.unwraps left'.ty right'.ty
    · rw [if_pos hunwraps] at hpair hpair'
      cases hpair
      cases hpair'
      exact ⟨hleft.unwrap, hright.unwrap⟩
    · rw [if_neg hunwraps] at hpair hpair'
      cases hpair
      cases hpair'
      exact ⟨hleft, hright⟩
  obtain ⟨hl, hr⟩ := hlr
  dsimp only
  rw [hl.ty, hr.ty]
  split
  · exact ⟨hl.promote, hr.promote⟩
  · split
    · split
      · exact ⟨hl.castTo _, hr.castTo _⟩
      · exact ⟨hl, hr⟩
    · exact ⟨hl, hr⟩

end Operand.Related

mutual

/-- The trees are the same, except that some parts of the first are related by `p` to what the
second has in the same places. -/
inductive Tree.SameBut (p : Tree → Tree → Prop) : Tree → Tree → Prop where
  | changed {a b : Tree} (h : p a b) : Tree.SameBut p a b
  | refl (a : Tree) : Tree.SameBut p a a
  | field {a b : Tree} {name : String} {filter : FieldFilter} (h : Tree.SameBut p a b) :
      Tree.SameBut p (.field a name filter) (.field b name filter)
  | call {a b : Tree} {m : MethodRef} {xs ys : List Tree} (hobject : Tree.SameBut p a b)
      (hargs : List.Forall₂ (Tree.SameBut p) xs ys) : Tree.SameBut p (.call a m xs) (.call b m ys)
  | newInstance {c : ClassId} {m : MethodRef} {xs ys : List Tree}
      (h : List.Forall₂ (Tree.SameBut p) xs ys) :
      Tree.SameBut p (.newInstance c m xs) (.newInstance c m ys)
  | newArray {ty : Ty} {a b : Option Tree} {xs ys : Option (List Tree)}
      (hdimension : Option.Rel (Tree.SameBut p) a b)
      (helements : Option.Rel (List.Forall₂ (Tree.SameBut p)) xs ys) :
      Tree.SameBut p (.newArray ty a xs) (.newArray ty b ys)
  | element {a b i j : Tree} (harray : Tree.SameBut p a b) (hindex : Tree.SameBut p i j) :
      Tree.SameBut p (.element a i) (.element b j)
  | assign {a b x y : Tree} {old : Bool} (htarget : Tree.SameBut p a b)
      (hvalue : Tree.SameBut p x y) : Tree.SameBut p (.assign a x old) (.assign b y old)
  | binary {op : BinaryOp} {a b x y : Tree} {ty : Ty} (hleft : Tree.SameBut p a b)
      (hright : Tree.SameBut p x y) : Tree.SameBut p (.binary op a x ty) (.binary op b y ty)
  | unary {op : UnaryOp} {a b : Tree} {ty : Ty} (h : Tree.SameBut p a b) :
      Tree.SameBut p (.unary op a ty) (.unary op b ty)
  | conditional {c d a b x y : Tree} (hcondition : Tree.SameBut p c d)
      (hthen : Tree.SameBut p a b) (helse : Tree.SameBut p x y) :
      Tree.SameBut p (.conditional c a x) (.conditional d b y)
  | instanceOf {a b : Tree} {ty : Ty} (h : Tree.SameBut p a b) :
      Tree.SameBut p (.instanceOf a ty) (.instanceOf b ty)
  | cast {a b : Tree} {ty : Ty} (h : Tree.SameBut p a b) : Tree.SameBut p (.cast a ty) (.cast b ty)
  | box {a b : Tree} {kind : Kind} (h : Tree.SameBut p a b) :
      Tree.SameBut p (.box a kind) (.box b kind)
  | unbox {a b : Tree} {kind : Kind} (h : Tree.SameBut p a b) :
      Tree.SameBut p (.unbox a kind) (.unbox b kind)
  | pin {a b : Tree} (h : Tree.SameBut p a b) : Tree.SameBut p (.pin a) (.pin b)
  | block {xs ys : List Tree} (h : List.Forall₂ (Tree.SameBut p) xs ys) :
      Tree.SameBut p (.block xs) (.block ys)
  | declare {xs ys : List LocalInit} (h : List.Forall₂ (LocalInit.SameBut p) xs ys) :
      Tree.SameBut p (.declare xs) (.declare ys)
  | ifElse {label : Option String} {c d a b : Tree} {x y : Option Tree}
      (hcondition : Tree.SameBut p c d) (hthen : Tree.SameBut p a b)
      (helse : Option.Rel (Tree.SameBut p) x y) :
      Tree.SameBut p (.ifElse label c a x) (.ifElse label d b y)
  | whileLoop {label : Option String} {c d a b : Tree} (hcondition : Tree.SameBut p c d)
      (hbody : Tree.SameBut p a b) : Tree.SameBut p (.whileLoop label c a) (.whileLoop label d b)
  | doLoop {label : Option String} {c d a b : Tree} (hbody : Tree.SameBut p a b)
      (hcondition : Tree.SameBut p c d) : Tree.SameBut p (.doLoop label a c) (.doLoop label b d)
  | forLoop {label : Option String} {is js us ws : List Tree} {c d : Option Tree} {a b : Tree}
      (hinit : List.Forall₂ (Tree.SameBut p) is js) (hcondition : Option.Rel (Tree.SameBut p) c d)
      (hupdate : List.Forall₂ (Tree.SameBut p) us ws) (hbody : Tree.SameBut p a b) :
      Tree.SameBut p (.forLoop label is c us a) (.forLoop label js d ws b)
  | returnValue {a b : Option Tree} (h : Option.Rel (Tree.SameBut p) a b) :
      Tree.SameBut p (.returnValue a) (.returnValue b)
  | throwValue {a b : Tree} (h : Tree.SameBut p a b) :
      Tree.SameBut p (.throwValue a) (.throwValue b)
  | fragment {xs ys : List Tree} (h : List.Forall₂ (Tree.SameBut p) xs ys) :
      Tree.SameBut p (.fragment xs) (.fragment ys)

/-- The same for declared variables, whose initialisations may differ in places. -/
inductive LocalInit.SameBut (p : Tree → Tree → Prop) : LocalInit → LocalInit → Prop where
  | mk {name : String} {ty : Ty} {zero : Tree} {a b : Option Tree}
      (h : Option.Rel (Tree.SameBut p) a b) :
      LocalInit.SameBut p (.mk name ty zero a) (.mk name ty zero b)

end

namespace Tree.SameBut

variable {p : Tree → Tree → Prop} {t u : Tree}

/-- Unless they are changed as a whole, both trees are places or neither is. -/
theorem isLvalue (h : SameBut p t u) : p t u ∨ t.isLvalue = u.isLvalue := by
  cases h with
  | changed h => exact .inl h
  | _ => exact .inr rfl

/-- Trees that differ nowhere are equal. -/
theorem eq (h : t.SameBut (fun _ _ => False) u) : t = u := by
  -- All that stands below a tree, in lists and options too, is equal by induction.
  apply @Tree.SameBut.rec (fun _ _ => False) (fun t u _ => t = u) (fun a b _ => a = b)
    (fun xs ys _ => xs = ys) (fun a b _ => a = b) (fun xs ys _ => xs = ys) (fun xs ys _ => xs = ys)
  case t => exact h
  case changed => exact fun h => h.elim
  all_goals
    intros
    subst_vars
    rfl

end Tree.SameBut

/-- Trees that are the same but for some places. -/
instance Tree.congruence_sameBut (p : Tree → Tree → Prop) : Congruence (SameBut p) where
  one := .refl _
  thisAt _ := .refl _
  superAt _ := .refl _
  typeRef _ := .refl _
  classObject _ := .refl _
  field := .field
  call := .call
  newInstance := .newInstance
  newArray := .newArray
  element := .element
  assign := .assign
  binary := .binary
  unary := .unary
  conditional := .conditional
  instanceOf := .instanceOf
  cast := .cast
  box := .box
  unbox := .unbox

end Breakpoint
