import Breakpoint.Fault

/-! Scopes of the locals that compiled code declares. Frames live in an arena and are never removed:
a frame knows the frame around it by index, and leaving a frame only makes its parent current. A
frame is entered after its parent, so indices fall along the way outwards and every walk ends. -/

namespace Breakpoint

/-- A local variable declared by the code being compiled. -/
structure LocalEntry where
  name : String
  ty : Ty
  span : Span
deriving DecidableEq, Repr

/-- The locals of one scope, and the index of the scope around it. -/
structure Frame where
  parent : Option Nat := none
  locals : List LocalEntry := []
deriving DecidableEq, Repr, Inhabited

/-- The local of a given name. -/
def Frame.find? (f : Frame) (name : String) : Option LocalEntry :=
  f.locals.find? fun entry => entry.name == name

/-- All frames entered so far, the one that is current, and the one that opened the outermost
statement list, as long as that list is open. -/
structure Arena where
  frames : Array Frame
  current : Option Nat
  root : Option Nat
  parent_lt : ∀ (i : Nat) (h : i < frames.size), ∀ p ∈ frames[i].parent, p < i
  current_lt : ∀ i ∈ current, i < frames.size

namespace Arena

/-- No frames yet. -/
def empty : Arena where
  frames := #[]
  current := none
  root := none
  parent_lt := by simp
  current_lt := by simp

/-- The index that the next frame will have. -/
def nextIndex (a : Arena) : Nat := a.frames.size

/-- Enters a new frame inside the current one. -/
def enter (a : Arena) : Arena where
  frames := a.frames.push { parent := a.current }
  current := some a.frames.size
  root := a.root
  parent_lt := by
    intro i hi p hp
    rw [Array.size_push] at hi
    rw [Array.getElem_push] at hp
    split at hp
    · exact a.parent_lt i ‹_› p hp
    · have := a.current_lt p hp
      omega
  current_lt := by simp

/-- Enters the frame of a statement list; the outermost of them becomes the root. -/
def enterRoot (a : Arena) : Arena :=
  { a.enter with root := a.root.or (some a.nextIndex) }

/-- Leaves the current frame, if there is one. -/
def leave (a : Arena) : Arena where
  frames := a.frames
  current := a.current.bind fun i => a.frames[i]?.bind Frame.parent
  root := if a.current.isSome && a.current == a.root then none else a.root
  parent_lt := a.parent_lt
  current_lt := by
    intro p hp
    obtain ⟨i, hi, hp⟩ := Option.bind_eq_some_iff.1 hp
    obtain ⟨f, hf, hp⟩ := Option.bind_eq_some_iff.1 hp
    obtain ⟨hlt, rfl⟩ := Array.getElem?_eq_some_iff.1 hf
    exact Nat.lt_trans (a.parent_lt i hlt p hp) hlt

/-- Whether a statement list is open, so that locals may be declared. -/
def inFragment (a : Arena) : Bool := a.root.isSome

/-- The frame of index `i` and those around it, from the inside out. -/
def outward (a : Arena) (i : Nat) : List Frame :=
  if h : i < a.frames.size then
    a.frames[i] :: match hp : a.frames[i].parent with
      | none => []
      | some p =>
        have : p < i := a.parent_lt i h p hp
        a.outward p
  else []

/-- The open frames, from the inside out. -/
def openFrames (a : Arena) : List Frame :=
  match a.current with
  | none => []
  | some i => a.outward i

/-- The number of open frames. -/
def depth (a : Arena) : Nat := a.openFrames.length

/-- The innermost visible local of a name. -/
def lookup? (a : Arena) (name : String) : Option LocalEntry :=
  a.openFrames.findSome? fun frame => frame.find? name

/-- Whether a local of that name is visible. -/
def visible (a : Arena) (name : String) : Bool := (a.lookup? name).isSome

/-- Adds a local to the frame of index `i`. -/
def add (a : Arena) (i : Nat) (entry : LocalEntry) : Arena where
  frames := a.frames.modify i fun frame => { frame with locals := entry :: frame.locals }
  current := a.current
  root := a.root
  parent_lt := by
    intro j hj p hp
    rw [Array.size_modify] at hj
    refine a.parent_lt j hj p ?_
    rw [Array.getElem_modify] at hp
    split at hp <;> exact hp
  current_lt := by simpa using a.current_lt

/-- Declares a local in the current frame. There has to be an open statement list, and the frame
must not have a local of that name; locals of the frames around it may be shadowed. -/
def declare (a : Arena) (entry : LocalEntry) (text : String) : Except Fault Arena :=
  let excerpt : Excerpt := ⟨text, entry.span⟩
  match a.current with
  | none => excerpt.refuse .declarationOutsideFragment
  | some i =>
    if !a.inFragment then excerpt.refuse .declarationOutsideFragment
    else if ((a.frames[i]?).bind fun frame => frame.find? entry.name).isSome then
      excerpt.refuse (.variableRedeclaration entry.name)
    else .ok (a.add i entry)

end Arena

end Breakpoint
