import Breakpoint.Proofs.Outcome
import Mathlib.Data.List.Forall2
import Mathlib.Tactic.Common

/-!
Array initializers. A brace list stands for an array whose type comes from outside: the outermost
list has the type that is asked for, and every list or element inside of it has the type of the
components one level further out. The tree that is built has the shape of the lists, as deep as the
type has dimensions; what is noted on the lists plays no part.
-/

namespace Breakpoint

namespace Ty

/-- The type of the components, taken so many times. -/
def inner? : Nat → Ty → Option Ty
  | 0, t => some t
  | steps + 1, t => t.component?.bind (inner? steps)

/-- The number of dimensions; a type that is no array has none. -/
def rank : Ty → Nat
  | array _ dims => dims.toNat
  | _ => 0

/-- The last of the steps may be set apart as well as the first. -/
theorem inner?_succ (steps : Nat) (t : Ty) :
    inner? (steps + 1) t = (inner? steps t).bind component? := by
  induction steps generalizing t with
  | zero =>
      rw [inner?, inner?, Option.bind_some]
      cases t.component? <;> rfl
  | succ steps ih =>
      rw [inner?, inner?, Option.bind_assoc]
      exact congrArg t.component?.bind (funext ih)

theorem rank_toTy (element : Element) : element.toTy.rank = 0 := by
  cases element <;> rfl

theorem rank_of_component? {t component : Ty} (h : t.component? = some component) :
    t.rank = component.rank + 1 := by
  cases t with
  | array element dims =>
      rw [component?] at h
      split_ifs at h with hzero hone
      · cases h
        rw [rank_toTy, hone]
        rfl
      · cases h
        have hpos : dims.toNat ≠ 0 := fun heq => hzero (UInt8.toNat_inj.1 heq)
        have hle : (1 : UInt8) ≤ dims := UInt8.le_iff_toNat_le.2 (Nat.one_le_iff_ne_zero.2 hpos)
        rw [rank, rank, UInt8.toNat_sub_of_le _ _ hle, UInt8.toNat_one]
        omega
  | _ => cases h

theorem rank_of_component?_eq_none {t : Ty} (h : t.component? = none) : t.rank = 0 := by
  cases t with
  | array element dims =>
      rw [component?] at h
      split_ifs at h with hzero
      rw [hzero]
      rfl
  | _ => rfl

end Ty

namespace Expr

/-- A brace list, an element of one, or the expression itself, with the number of brace lists that
stand around it. -/
inductive Nests : Expr → Nat → Expr → Prop where
  | self (e : Expr) : Nests e 0 e
  | element {note : Note} {elements : List Expr} {e part : Expr} {level : Nat} (he : e ∈ elements)
      (h : Nests e level part) : Nests (.braces note elements) (level + 1) part

/-- The two are the same but for the types noted on brace lists. -/
inductive Reannotated : Expr → Expr → Prop where
  | braces {note note' : Note} {elements elements' : List Expr}
      (hexcerpt : note.excerpt = note'.excerpt)
      (helements : List.Forall₂ Reannotated elements elements') :
      Reannotated (.braces note elements) (.braces note' elements')
  | other {e : Expr} (he : e.isBraces = false) : Reannotated e e

theorem Reannotated.isBraces {e e' : Expr} (h : e.Reannotated e') : e'.isBraces = e.isBraces := by
  cases h with
  | braces => rfl
  | other => rfl

theorem isBraces_iff {e : Expr} : e.isBraces ↔ ∃ note elements, e = .braces note elements := by
  cases e <;> simp [isBraces]

/-- To show something of every initializer, show it of what is no brace list, and of a brace list
when it holds of its elements. -/
theorem initializer_induction {P : Expr → Prop} (operand : ∀ e, e.isBraces = false → P e)
    (list : ∀ note elements, (∀ e ∈ elements, P e) → P (.braces note elements)) (e : Expr) :
    P e := by
  cases he : e.isBraces with
  | false => exact operand e he
  | true =>
      obtain ⟨note, elements, heq⟩ := isBraces_iff.1 he
      rw [heq]
      exact list note elements fun part hmem => initializer_induction operand list part
termination_by sizeOf e
decreasing_by
  have hlt := List.sizeOf_lt_of_mem hmem
  rw [heq, braces.sizeOf_spec]
  omega

/-- All brace lists stand in fewer brace lists than `rank`. -/
def Shallow (e : Expr) (rank : Nat) : Prop :=
  ∀ level list, e.Nests level list → list.isBraces → level < rank

theorem shallow_of_not_isBraces {e : Expr} (he : e.isBraces = false) (rank : Nat) :
    e.Shallow rank := by
  rintro level list (_ | ⟨hmem, h⟩) hlist
  · rw [he] at hlist
    cases hlist
  · cases he

end Expr

namespace View

/-- An initializer for an array of type `ty` and its tree, as they stand inside of `level` brace
lists. A brace list becomes an array of the type at its level, with a tree for each of its elements
in order; another element becomes its value, converted to the type at its level. -/
inductive Mirrors (v : View) (ty : Ty) : Nat → Expr → Tree → Prop where
  | list {level : Nat} {note : Note} {elements : List Expr} {array : Ty} {trees : List Tree}
      (hty : ty.inner? level = some array) (hlength : elements.length = trees.length)
      (helements : ∀ {e tree}, (e, tree) ∈ elements.zip trees → Mirrors v ty (level + 1) e tree) :
      Mirrors v ty level (.braces note elements) (.newArray array none (some trees))
  | operand {level : Nat} {e : Expr} {x : Operand} {component : Ty} (he : e.isBraces = false)
      (hty : ty.inner? level = some component) (hx : v.lowerOperand e = .ok x) :
      Mirrors v ty level e (x.assignTo component).tree

/-- All elements of an initializer that are no brace lists themselves can be compiled. -/
def CompilesOperands (v : View) (init : Expr) : Prop :=
  ∀ level e, init.Nests level e → e.isBraces = false → ∃ x, v.lowerOperand e = .ok x

/-- The fault blames a brace list inside of as many brace lists as `t` has dimensions, where nothing
is left that could be an array. -/
def BlamesDepth (v : View) (t : Ty) (e : Expr) (fault : Fault) : Prop :=
  ∃ list found, e.Nests t.rank list ∧ list.isBraces ∧ t.inner? t.rank = some found ∧
    fault = ⟨.notAnArray (v.typeName found), list.excerpt⟩

/-- What an initializer comes to where its operands can be compiled: it mirrors the lists if they
are shallow enough, and else one that is too deep is blamed. -/
def Initializes (v : View) (ty : Ty) (level : Nat) (t : Ty) (e : Expr) : Except Fault Tree → Prop :=
  Meets (fun fault => v.CompilesOperands e → v.BlamesDepth t e fault)
    (fun tree => v.Mirrors ty level e tree ∧ e.Shallow t.rank)

variable {v : View} {ty t : Ty} {level : Nat} {e : Expr}

theorem compilesOperands_of_ok {x : Operand} (he : e.isBraces = false)
    (hx : v.lowerOperand e = .ok x) : v.CompilesOperands e := by
  rintro _ part (_ | ⟨hmem, hnests⟩) hpart
  · exact ⟨x, hx⟩
  · cases he

theorem compilesOperands_braces_iff {note : Note} {elements : List Expr} :
    v.CompilesOperands (.braces note elements) ↔ ∀ e ∈ elements, v.CompilesOperands e := by
  constructor
  · exact fun h e he _ part hnests => h _ part (.element he hnests)
  · rintro h _ part (_ | ⟨he, hnests⟩) hpart
    · cases hpart
    · exact h _ he _ part hnests hpart

/-- An element that is no brace list is compiled as an operand and converted. -/
theorem initializes_operand (he : e.isBraces = false) (hty : ty.inner? level = some t) :
    v.Initializes ty level t e (v.lowerInitial t e) := by
  have hinitial : v.lowerInitial t e =
      (v.lowerOperand e).map fun x => (x.assignTo t).tree := by
    rw [lowerInitial, Expr.stored, Expr.storedRole, he]
    rfl
  rw [hinitial]
  cases hx : v.lowerOperand e with
  | error fault =>
      intro hoperands
      obtain ⟨x, hx'⟩ := hoperands 0 e (.self e) he
      cases hx.symm.trans hx'
  | ok x => exact ⟨.operand he hty hx, Expr.shallow_of_not_isBraces he _⟩

theorem lowerElements_initializes {elements : List Expr}
    (helements : ∀ e ∈ elements, v.Initializes ty level t e (v.lowerInitial t e)) :
    Meets (fun fault => ∃ e ∈ elements, v.CompilesOperands e → v.BlamesDepth t e fault)
      (fun trees => List.Forall₂ (v.Mirrors ty level) elements trees ∧
        ∀ e ∈ elements, e.Shallow t.rank) (v.lowerElements t elements) := by
  induction elements with
  | nil =>
      rw [lowerElements]
      exact ⟨.nil, by simp⟩
  | cons e rest ih =>
      obtain ⟨hfirst, hrest⟩ := List.forall_mem_cons.1 helements
      rw [lowerElements]
      apply (hfirst.mono (fun fault h => ⟨e, List.mem_cons_self, h⟩) fun tree => id).bind
      rintro tree ⟨hmirrors, hshallow⟩
      apply ((ih hrest).mono (fun fault ⟨e, he, h⟩ => ⟨e, List.mem_cons_of_mem _ he, h⟩)
        fun trees => id).bind
      rintro trees ⟨hmirrorsRest, hshallowRest⟩
      exact ⟨.cons hmirrors hmirrorsRest, List.forall_mem_cons.2 ⟨hshallow, hshallowRest⟩⟩

theorem lowerInitial_braces (note : Note) (elements : List Expr) (t : Ty) :
    v.lowerInitial t (.braces note elements) =
      v.arrayOf note t fun component => v.lowerElements component elements := by
  change v.lower (.initializer t) (.braces note elements) = _
  rw [lower]

/-- A brace list is initialized by its elements, which stand one level further in. -/
theorem initializes_braces (note : Note) {elements : List Expr} (hty : ty.inner? level = some t)
    (helements : ∀ e ∈ elements, ∀ component, ty.inner? (level + 1) = some component →
      v.Initializes ty (level + 1) component e (v.lowerInitial component e)) :
    v.Initializes ty level t (.braces note elements)
      (v.lowerInitial t (.braces note elements)) := by
  rw [lowerInitial_braces, arrayOf]
  split
  next component hcomponent =>
    have hinner : ty.inner? (level + 1) = some component := by
      rw [Ty.inner?_succ, hty, Option.bind_some, hcomponent]
    have hrank := Ty.rank_of_component? hcomponent
    have htrees := lowerElements_initializes fun e he => helements e he component hinner
    refine (htrees.mono ?_ fun trees => id).map ?_
    · rintro fault ⟨e, he, hblames⟩ hoperands
      obtain ⟨list, found, hnests, hlist, hfound, hfault⟩ :=
        hblames (compilesOperands_braces_iff.1 hoperands e he)
      refine ⟨list, found, ?_, hlist, ?_, hfault⟩
      · rw [hrank]
        exact .element he hnests
      · rw [hrank, Ty.inner?, hcomponent]
        exact hfound
    · rintro trees ⟨hmirrors, hshallow⟩
      obtain ⟨hlength, hzip⟩ := List.forall₂_iff_zip.1 hmirrors
      refine ⟨.list hty hlength hzip, ?_⟩
      rintro _ list (_ | ⟨he, hnests⟩) hlist
      · omega
      · have hlevel := hshallow _ he _ list hnests hlist
        omega
  next hnone =>
    intro _
    have hrank := Ty.rank_of_component?_eq_none hnone
    refine ⟨.braces note elements, t, ?_, rfl, ?_, rfl⟩
    · rw [hrank]
      exact .self _
    · rw [hrank]
      rfl

theorem lowerInitial_initializes (e : Expr) (hty : ty.inner? level = some t) :
    v.Initializes ty level t e (v.lowerInitial t e) := by
  induction e using Expr.initializer_induction generalizing level t with
  | operand e he => exact initializes_operand he hty
  | list note elements ih => exact initializes_braces note hty fun e he component => ih e he

theorem lowerElements_reannotated {elements elements' : List Expr}
    (h : List.Forall₂ Expr.Reannotated elements elements')
    (heach : ∀ e ∈ elements, ∀ {e'}, e.Reannotated e' → v.lowerInitial t e' = v.lowerInitial t e) :
    v.lowerElements t elements' = v.lowerElements t elements := by
  induction h with
  | nil => rfl
  | cons hfirst hrest ih =>
      obtain ⟨hlower, hlowerRest⟩ := List.forall_mem_cons.1 heach
      rw [lowerElements, lowerElements, ih hlowerRest]
      exact congrArg (· >>= _) (hlower hfirst)

/-- The types noted on brace lists play no part. -/
theorem lowerInitial_reannotated {e e' : Expr} (h : e.Reannotated e') (t : Ty) :
    v.lowerInitial t e' = v.lowerInitial t e := by
  induction e using Expr.initializer_induction generalizing e' t with
  | operand e he =>
      cases h with
      | braces => cases he
      | other => rfl
  | list note elements ih =>
      cases h with
      | other he => cases he
      | braces hexcerpt helements =>
          rw [lowerInitial_braces, lowerInitial_braces, arrayOf, arrayOf]
          split
          · rw [lowerElements_reannotated helements fun e he _ h => ih e he h _]
          · rw [hexcerpt]

end View

/-- An initializer keeps its shape and gets its types from outside. Let a brace list stand for an
array. If it compiles, its tree mirrors it: at every level a list has become an array of the type at
that level, with as many elements in order, and every other element its value, converted to the type
at its level. The types noted on the lists play no part. If all elements that are no lists can be
compiled, then it compiles if every list stands in fewer lists than the array has dimensions, and
otherwise a list that stands in as many is blamed for not being an array. -/
theorem initializers_typed_inwards (v : View) (init : Expr) (hinit : init.isBraces)
    (element : Element) (dims : UInt8) :
    let ty := Ty.array element dims
    (∀ tree, v.lower (.initializer ty) init = .ok tree → v.Mirrors ty 0 init tree) ∧
    (∀ init', init.Reannotated init' →
      v.lower (.initializer ty) init' = v.lower (.initializer ty) init) ∧
    (v.CompilesOperands init →
      ((∃ level list, init.Nests level list ∧ list.isBraces ∧ dims.toNat ≤ level) →
        ∃ list found, init.Nests dims.toNat list ∧ list.isBraces ∧
          ty.inner? dims.toNat = some found ∧
          v.lower (.initializer ty) init = .error ⟨.notAnArray (v.typeName found), list.excerpt⟩) ∧
      ((∀ level list, init.Nests level list → list.isBraces → level < dims.toNat) →
        ∃ tree, v.lower (.initializer ty) init = .ok tree)) := by
  intro ty
  have hinitial {e : Expr} (he : e.isBraces) :
      v.lowerInitial ty e = v.lower (.initializer ty) e := by
    rw [View.lowerInitial, Expr.stored, Expr.storedRole, he]
    rfl
  have hmeets : v.Initializes ty 0 ty init (v.lower (.initializer ty) init) := by
    rw [← hinitial hinit]
    exact View.lowerInitial_initializes init rfl
  refine ⟨fun tree htree => (hmeets.of_ok htree).1, fun init' hinit' => ?_, fun hoperands => ?_⟩
  · rw [← hinitial hinit, ← hinitial (hinit'.isBraces.trans hinit)]
    exact View.lowerInitial_reannotated hinit' ty
  · cases hlower : v.lower (.initializer ty) init with
    | ok tree =>
        have hshallow := (hmeets.of_ok hlower).2
        refine ⟨?_, fun _ => ⟨tree, rfl⟩⟩
        rintro ⟨level, list, hnests, hlist, hdeep⟩
        exact absurd (hshallow level list hnests hlist) (Nat.not_lt.2 hdeep)
    | error fault =>
        obtain ⟨list, found, hnests, hlist, hfound, rfl⟩ := hmeets.of_error hlower hoperands
        refine ⟨fun _ => ⟨list, found, hnests, hlist, hfound, rfl⟩, fun hshallow => ?_⟩
        exact absurd (hshallow _ list hnests hlist) (Nat.lt_irrefl _)

/-- Two rows of different lengths for an array of two dimensions: both rows are arrays of the
components and the number in the first one is widened. For an array of one dimension the rows are
too deep. -/
theorem initializers_typed_inwards_rows :
    let v : View := ⟨⟨.empty, .detached, {}⟩, fun _ => false⟩
    let number : Expr := .literal { ty? := some .int } (.int 1)
    let init : Expr := .braces {} [.braces {} [number], .braces {} []]
    let row := Ty.array (.prim .long) 1
    let rows := Ty.array (.prim .long) 2
    let widened : Tree := .cast (.literal (.int 1) .int) (.prim .long)
    let tree : Tree := .newArray rows none
      (some [.newArray row none (some [widened]), .newArray row none (some [])])
    v.lower (.initializer rows) init = .ok tree ∧ v.Mirrors rows 0 init tree ∧
      v.CompilesOperands init ∧
      ∃ list found, init.Nests 1 list ∧ list.isBraces ∧ row.inner? 1 = some found ∧
        v.lower (.initializer row) init =
          .error ⟨.notAnArray (v.typeName found), list.excerpt⟩ := by
  intro v number init row rows widened tree
  have htree : v.lower (.initializer rows) init = .ok tree := rfl
  have hnumber : v.CompilesOperands number := View.compilesOperands_of_ok rfl rfl
  have hoperands : v.CompilesOperands init := by
    simpa [init, View.compilesOperands_braces_iff] using hnumber
  refine ⟨htree, ?_, hoperands, ?_⟩
  · exact (initializers_typed_inwards v init rfl (.prim .long) 2).1 tree htree
  · refine ((initializers_typed_inwards v init rfl (.prim .long) 1).2.2 hoperands).1 ?_
    exact ⟨1, _, .element List.mem_cons_self (.self _), rfl, Nat.le_refl 1⟩

end Breakpoint
