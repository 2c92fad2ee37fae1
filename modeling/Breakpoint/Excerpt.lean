/-! Pieces of source text. Every node of the input carries the text it was written as and where that
text starts, so that a refusal can quote exactly what was refused. -/

namespace Breakpoint

/-- A stretch of one line: its line, its first column and its length, all in 32-bit words. Lines and
columns count from one; the zero span stands for an unknown place. -/
structure Span where
  line : UInt32 := 0
  col : UInt32 := 0
  len : UInt32 := 0
deriving DecidableEq, Repr, Inhabited

namespace Span

/-- A span of length zero was never filled in. -/
def isEmpty (s : Span) : Bool := s.len == 0

/-- The span `s`, or `fallback` where `s` was never filled in. -/
def orElse (s fallback : Span) : Span := if s.isEmpty then fallback else s

/-- From the start of `s` to the later of the two ends. Only one line can be measured, so an `e` on
another line, or one that starts before `s`, leaves `s` as it is. -/
def through (s e : Span) : Span :=
  if e.line ≠ s.line ∨ e.col < s.col then s
  else { s with len := max (e.col + e.len) (s.col + s.len) - s.col }

/-- Line and column. -/
def render (s : Span) : String := toString s.line.toNat ++ ":" ++ toString s.col.toNat

end Span

/-- Source text together with its place. -/
structure Excerpt where
  text : String := ""
  span : Span := {}
deriving DecidableEq, Repr, Inhabited

end Breakpoint
