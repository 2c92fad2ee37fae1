import Breakpoint.Ty

/-! The classes that evaluated code can mention, with their superclass, interface and outer links.
The links may be cyclic and may lead to classes that are not listed; the searches below end on every
such graph, because each step either visits a listed class for the first time or shortens what is
left to do. -/

namespace Breakpoint

/-- How a class is nested in the source. -/
inductive Nesting where
  | topLevel
  | inner
  | staticNested
  | localClass
  | anonymous
deriving DecidableEq, Repr, Inhabited

/-- Whether instances of such a class keep a reference to an enclosing instance. -/
def Nesting.hasOuterInstance : Nesting → Bool
  | inner | localClass | anonymous => true
  | topLevel | staticNested => false

/-- What is known of one class. -/
structure ClassInfo where
  id : ClassId
  name : String
  superclass : Option ClassId := some ClassId.object
  interfaces : List ClassId := []
  outer : Option ClassId := none
  nesting : Nesting := .topLevel
deriving DecidableEq, Repr

/-- A top-level class that extends the root class. -/
def ClassInfo.ofName (name : String) : ClassInfo := { id := ClassId.ofName name, name }

/-- The known classes, at most one for each id. -/
structure Hierarchy where
  classes : List ClassInfo
  distinct : (classes.map ClassInfo.id).Nodup

namespace Hierarchy

/-- No classes at all. -/
def empty : Hierarchy := ⟨[], List.nodup_nil⟩

/-- Adds a class, in place of the class of the same id if there is one. -/
def insert (h : Hierarchy) (c : ClassInfo) : Hierarchy where
  classes := c :: h.classes.filter fun other => other.id != c.id
  distinct := by
    simp only [List.map_cons, List.nodup_cons]
    refine ⟨by simp, h.distinct.sublist ?_⟩
    exact List.Sublist.map _ List.filter_sublist

/-- The number of known classes. -/
def size (h : Hierarchy) : Nat := h.classes.length

/-- The class of a given id. -/
def get? (h : Hierarchy) (id : ClassId) : Option ClassInfo := h.classes.find? fun c => c.id == id

theorem get?_empty (id : ClassId) : empty.get? id = none := rfl

theorem get?_insert (h : Hierarchy) (c : ClassInfo) (id : ClassId) :
    (h.insert c).get? id = if c.id = id then some c else h.get? id := by
  by_cases hid : c.id = id
  · simp [get?, insert, hid]
  · simp only [get?, insert, List.find?_cons, hid, beq_eq_false_iff_ne.2 hid, if_false,
      List.find?_filter]
    congr 1
    funext other
    by_cases hother : other.id = id
    · simp [hother, Ne.symm hid]
    · simp [hother]

/-- The root class, strings, and the wrapper classes; the numeric wrappers share a superclass. -/
def builtin : Hierarchy :=
  let number := ClassInfo.ofName "java.lang.Number"
  let wrapper (name : String) := ClassInfo.ofName name
  let numeric (name : String) := { ClassInfo.ofName name with superclass := some number.id }
  [{ ClassInfo.ofName "java.lang.Object" with superclass := none },
    ClassInfo.ofName "java.lang.String", number,
    wrapper "java.lang.Boolean", numeric "java.lang.Byte", numeric "java.lang.Short",
    wrapper "java.lang.Character", numeric "java.lang.Integer", numeric "java.lang.Long",
    numeric "java.lang.Float", numeric "java.lang.Double"].foldl insert empty

/-- The qualified name of a class, or its code if the class is not known. -/
def nameOf (h : Hierarchy) (id : ClassId) : String :=
  match h.get? id with
  | some c => c.name
  | none => id.render

/-- The text of a type, with qualified names for the known classes. -/
def typeName (h : Hierarchy) (t : Ty) : String := t.renderWith h.nameOf

/-- Whether instances of a class keep an enclosing instance; those of an unknown class do not. -/
def hasOuterInstance (h : Hierarchy) (id : ClassId) : Bool :=
  (h.get? id).any fun c => c.nesting.hasOuterInstance

/-- The class that lexically encloses a class. -/
def outer? (h : Hierarchy) (id : ClassId) : Option ClassId := (h.get? id).bind ClassInfo.outer

/-- The classes that a class extends or implements directly. -/
def parents (h : Hierarchy) (id : ClassId) : List ClassId :=
  match h.get? id with
  | some c => c.superclass.toList ++ c.interfaces
  | none => []

/-- The number of known classes outside `seen`. -/
def unseen (h : Hierarchy) (seen : List ClassId) : Nat := h.classes.countP (·.id ∉ seen)

theorem unseen_cons_of_get?_eq_none {h : Hierarchy} {id : ClassId} (absent : h.get? id = none)
    (seen : List ClassId) : h.unseen (id :: seen) = h.unseen seen := by
  refine List.countP_congr fun c hc => ?_
  have hne : c.id ≠ id := by simpa using List.find?_eq_none.1 absent c hc
  simp [hne]

theorem unseen_cons_lt {h : Hierarchy} {id : ClassId} {c : ClassInfo} (known : h.get? id = some c)
    {seen : List ClassId} (fresh : id ∉ seen) : h.unseen (id :: seen) < h.unseen seen := by
  have hid : c.id = id := by simpa using List.find?_some known
  obtain ⟨before, after, hsplit⟩ := List.append_of_mem (List.mem_of_find?_eq_some known)
  have hmono (l : List ClassInfo) : l.countP (·.id ∉ id :: seen) ≤ l.countP (·.id ∉ seen) :=
    List.countP_mono_left fun c _ => by simp
  have hout : decide (c.id ∉ id :: seen) = false := by simp [hid]
  have hin : decide (c.id ∉ seen) = true := by simpa [hid] using fresh
  have hbefore := hmono before
  have hafter := hmono after
  simp only [unseen, hsplit, List.countP_append, List.countP_cons, hout, hin, if_true,
    Bool.false_eq_true, if_false]
  omega

/-- Whether the search for `goal` succeeds from the classes still pending, when those in `seen` were
already expanded. What became pending last is looked at first: of the classes that a class extends,
its last interface comes first and its superclass last. -/
def reaches (h : Hierarchy) (goal : ClassId) (seen : List ClassId) : List ClassId → Bool
  | [] => false
  | id :: pending =>
    if id = goal then true
    else if id ∈ seen then h.reaches goal seen pending
    else h.reaches goal (id :: seen) ((h.parents id).reverse ++ pending)
termination_by pending => (h.unseen seen, pending.length)
decreasing_by
  · exact Prod.Lex.right _ (by simp)
  · rename_i fresh
    cases known : h.get? id with
    | none =>
      rw [unseen_cons_of_get?_eq_none known]
      exact Prod.Lex.right _ (by simp [parents, known])
    | some c => exact Prod.Lex.left _ _ (unseen_cons_lt known fresh)

/-- Whether `sub` is `sup` or inherits from it; every class inherits from the root class. -/
def isSubclass (h : Hierarchy) (sub sup : ClassId) : Bool :=
  sub == sup || sup == ClassId.object || h.reaches sup [] [sub]

/-- Whether a value of type `source` may be stored as a `target` without a conversion. A primitive
type only takes itself; arrays of classes follow their elements, and every array is an object, also
as the element of an array with fewer dimensions. -/
def isAssignable (h : Hierarchy) (source target : Ty) : Bool :=
  source == target ||
    match source, target with
    | .null, _ => target.isReference
    | .ofClass a, .ofClass b => h.isSubclass a b
    | .array _ _, .ofClass b => b == ClassId.object
    | .array (.ofClass a) m, .array (.ofClass b) n =>
      if m = n then h.isSubclass a b else n < m && b == ClassId.object
    | .array (.prim _) m, .array (.ofClass b) n => n < m && b == ClassId.object
    | _, _ => false

/-- The outer links followed from `id`, up to a class in `seen`. -/
def outwardFrom (h : Hierarchy) (seen : List ClassId) (id : ClassId) : List ClassId :=
  if id ∈ seen then []
  else
    id :: match _known : h.outer? id with
      | none => []
      | some outer => h.outwardFrom (id :: seen) outer
termination_by h.unseen seen
decreasing_by
  rename_i fresh
  obtain ⟨c, hc, _⟩ := Option.bind_eq_some_iff.1 _known
  exact unseen_cons_lt hc fresh

/-- A class and the classes around it, innermost first, each of them once. -/
def enclosingChain (h : Hierarchy) (innermost : ClassId) : List ClassId :=
  h.outwardFrom [] innermost

end Hierarchy

end Breakpoint
