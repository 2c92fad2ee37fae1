import Breakpoint.Arena
import Breakpoint.Jumps
import Breakpoint.Position

/-! What compilation depends on. The site never changes: the known classes, the suspended position
and the options. An expression also depends on which declared locals are visible, and a statement on
the arena and on the jump targets around it, which it may change while it is compiled. -/

namespace Breakpoint

/-- Choices between a best effort and a refusal. -/
structure Options where
  /-- Replace a captured local by its constant value, where it has one. -/
  inlineCapturedConstants : Bool := true
  /-- Look unresolved names up when the tree is executed. -/
  deferUnresolvedNames : Bool := true
deriving DecidableEq, Repr

/-- The fixed surroundings of a compilation. -/
structure Site where
  hierarchy : Hierarchy
  position : Position
  options : Options := {}

/-- What an expression is compiled against. -/
structure View extends Site where
  visible : String → Bool

/-- What a statement is compiled against. -/
structure Context extends Site where
  arena : Arena
  jumps : Jumps

namespace Context

/-- The context at the start of a compilation. -/
def start (site : Site) : Context := { site with arena := .empty, jumps := {} }

/-- The surroundings of an expression in this context. -/
def view (c : Context) : View := { c.toSite with visible := c.arena.visible }

def enterFrame (c : Context) : Context := { c with arena := c.arena.enter }

def enterRoot (c : Context) : Context := { c with arena := c.arena.enterRoot }

def leaveFrame (c : Context) : Context := { c with arena := c.arena.leave }

def enterLoop (label : Option String) (c : Context) : Context :=
  { c with jumps := c.jumps.enterLoop label }

def enterLabeled (label : String) (c : Context) : Context :=
  { c with jumps := c.jumps.enterLabeled label }

def leaveTarget (c : Context) : Context := { c with jumps := c.jumps.leave }

end Context

end Breakpoint
