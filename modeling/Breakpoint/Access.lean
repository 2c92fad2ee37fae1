import Breakpoint.Context
import Breakpoint.Operand

/-! Ways from the suspended position to a declaration: to enclosing instances, to locals and
captured locals, to members of instances and classes. -/

namespace Breakpoint

/-- The least number of steps to an enclosing instance of `target`, along the classes of a position.
There is no way out of a class whose instances keep no enclosing instance. -/
def Hierarchy.hops? (h : Hierarchy) (target : ClassId) : List ClassId → Option Nat
  | [] => none
  | c :: rest =>
    if h.isSubclass c target then some 0
    else if h.hasOuterInstance c then (h.hops? target rest).map (· + 1)
    else none

/-- The class nested directly inside a method of `declaring`, after the classes further inside. -/
def holder? (declaring : ClassId) : List ClassId → Option (List ClassId × ClassId)
  | inner :: outer :: rest =>
    if outer = declaring then some ([], inner)
    else (holder? declaring (outer :: rest)).map fun found => (inner :: found.1, found.2)
  | _ => none

/-- The name of the field that keeps a captured local. -/
def capturedName (name : String) : String := "val$" ++ name

namespace Site

/-- The number of steps from the current instance to one of `target`. -/
def hopDepth (s : Site) (target : ClassId) (excerpt : Excerpt) : Except Fault Nat :=
  if s.position.hasThis then
    match s.hierarchy.hops? target s.position.classes with
    | some depth => .ok depth
    | none => excerpt.refuse (.noEnclosingInstance (s.hierarchy.nameOf target))
  else excerpt.refuse .thisNotAvailable

/-- The nearest enclosing instance of `target`. -/
def thisFor (s : Site) (target : ClassId) (excerpt : Excerpt) : Except Fault Tree :=
  (s.hopDepth target excerpt).map .thisAt

/-- The number of steps to the instance that a qualified or plain reference to it means. -/
def instanceDepth (s : Site) (qualifier : Option ClassId) (excerpt : Excerpt) : Except Fault Nat :=
  match qualifier with
  | some c => s.hopDepth c excerpt
  | none => if s.position.hasThis then .ok 0 else excerpt.refuse .thisNotAvailable

/-- The constant that stands for a captured local. -/
def inlined? (s : Site) (d : LocalDecl) : Option Constant :=
  if s.options.inlineCapturedConstants then d.constant? else none

/-- A local of a method around the classes of the position. The class directly inside that method
keeps it in a field, which is reached like any other member of that class. -/
def capturedLocal (s : Site) (d : LocalDecl) (declaring : ClassId) (excerpt : Excerpt) :
    Except Fault Tree :=
  match holder? declaring s.position.classes with
  | none => excerpt.refuse (.localNotAccessible d.name)
  | some (passed, holder) =>
    match s.inlined? d with
    | some value => .ok (.literal value d.ty)
    | none =>
      if !s.position.hasThis then excerpt.refuse .thisNotAvailable
      else if passed.all s.hierarchy.hasOuterInstance then
        .ok (.field (.thisAt passed.length) (capturedName d.name) (.declaredBy holder))
      else excerpt.refuse (.noEnclosingInstance (s.hierarchy.nameOf holder))

/-- The object that a member of `declaring` belongs to: the class itself for a static member, else
the given receiver, else the nearest enclosing instance. -/
def memberOwner (s : Site) (declaring : ClassId) (isStatic : Bool) (receiver : Option Tree)
    (excerpt : Excerpt) : Except Fault Tree :=
  if isStatic then .ok (.typeRef (.ofClass declaring))
  else
    match receiver with
    | some object => .ok object
    | none => s.thisFor declaring excerpt

/-- A field. -/
def fieldAccess (s : Site) (d : FieldDecl) (receiver : Option Tree) (excerpt : Excerpt) :
    Except Fault Tree :=
  (s.memberOwner d.declaring d.modifiers.isStatic receiver excerpt).map fun object =>
    .field object d.name (.declaredBy d.declaring)

/-- The object that a method is called on. -/
def methodReceiver (s : Site) (m : MethodDecl) (receiver : Option Tree) (excerpt : Excerpt) :
    Except Fault Tree :=
  s.memberOwner m.declaring m.modifiers.isStatic receiver excerpt

end Site

/-- A local variable. One that the compiled code declares has to be visible; one of the suspended
method is in the frame; one of a method further out was captured. -/
def View.localAccess (v : View) (d : LocalDecl) (excerpt : Excerpt) : Except Fault Tree :=
  match d.origin with
  | .fragment =>
    if v.visible d.name then .ok (.localVar d.name .fragment)
    else excerpt.refuse (.localNotAccessible d.name)
  | .method declaring =>
    if v.position.current? = some declaring then
      .ok (.localVar d.name (match d.parameter? with
        | none => .frame
        | some index => .parameter index))
    else v.capturedLocal d declaring excerpt

end Breakpoint
