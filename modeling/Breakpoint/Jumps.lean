import Breakpoint.Fault

/-! Targets of jumps. Around a statement there is a stack of loops and labelled choices; a jump is
refused if none of them could receive it. -/

namespace Breakpoint

/-- A statement that a jump can name. -/
structure JumpTarget where
  label : Option String
  isLoop : Bool
deriving DecidableEq, Repr

/-- The targets around a statement, innermost first. -/
structure Jumps where
  targets : List JumpTarget := []
deriving DecidableEq, Repr, Inhabited

namespace Jumps

/-- Enters a loop. -/
def enterLoop (j : Jumps) (label : Option String) : Jumps := ⟨⟨label, true⟩ :: j.targets⟩

/-- Enters a labelled statement that is no loop. -/
def enterLabeled (j : Jumps) (label : String) : Jumps := ⟨⟨some label, false⟩ :: j.targets⟩

/-- Leaves the innermost target, if there is one. -/
def leave (j : Jumps) : Jumps := ⟨j.targets.drop 1⟩

/-- Whether there is a loop around. -/
def inLoop (j : Jumps) : Bool := j.targets.any JumpTarget.isLoop

/-- The innermost target of a label. -/
def find? (j : Jumps) (label : String) : Option JumpTarget :=
  j.targets.find? fun target => target.label == some label

/-- Checks a jump out of a statement: without a label it needs a loop, with one the label. -/
def checkBreak (j : Jumps) (label : Option String) (excerpt : Excerpt) : Except Fault Unit :=
  match label with
  | none => if j.inLoop then .ok () else excerpt.refuse .breakOutsideLoop
  | some label =>
    match j.find? label with
    | some _ => .ok ()
    | none => excerpt.refuse (.undefinedLabel label)

/-- Checks a jump to the next round of a loop: the innermost target of a label has to be a loop. -/
def checkContinue (j : Jumps) (label : Option String) (excerpt : Excerpt) : Except Fault Unit :=
  match label with
  | none => if j.inLoop then .ok () else excerpt.refuse .continueOutsideLoop
  | some label =>
    match j.find? label with
    | some target => if target.isLoop then .ok () else excerpt.refuse (.notALoopLabel label)
    | none => excerpt.refuse (.undefinedLabel label)

end Jumps

end Breakpoint
