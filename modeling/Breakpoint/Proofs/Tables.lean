import Breakpoint.Proofs.Outcome
import Mathlib.Tactic.Common

/-!
The arena as a stack of tables. What can be seen of an arena are the locals of its open frames, one
table for each frame. Entering a frame pushes an empty table, leaving one pops it, and a declaration
extends the innermost table; the frames that are no longer open play no part.
-/

namespace Breakpoint

namespace Arena

/-- The locals of the open frames, from the inside out. -/
def tables (a : Arena) : List (List LocalEntry) := a.openFrames.map Frame.locals

theorem outward_of_lt {a : Arena} {i : Nat} (h : i < a.frames.size) :
    a.outward i = a.frames[i] :: (a.frames[i].parent.map a.outward).getD [] := by
  rw [outward, dif_pos h]
  congr 1
  split
  next hnone => simp [hnone]
  next p hp => simp [hp]

/-- The way outwards from a frame passes only frames of smaller index. -/
theorem outward_congr {a b : Arena} {i : Nat} (ha : i < a.frames.size) (hb : i < b.frames.size)
    (h : ∀ j ≤ i, a.frames[j]? = b.frames[j]?) : a.outward i = b.outward i := by
  have hframe : a.frames[i] = b.frames[i] := by
    simpa [Array.getElem?_eq_getElem ha, Array.getElem?_eq_getElem hb] using h i (Nat.le_refl i)
  rw [outward_of_lt ha, outward_of_lt hb, ← hframe]
  congr 1
  cases hparent : a.frames[i].parent with
  | none => rfl
  | some p =>
      have hp : p < i := a.parent_lt i ha p hparent
      exact outward_congr (Nat.lt_trans hp ha) (Nat.lt_trans hp hb) fun j hj =>
        h j (Nat.le_trans hj (Nat.le_of_lt hp))
termination_by i

theorem openFrames_eq (a : Arena) : a.openFrames = (a.current.map a.outward).getD [] := by
  unfold openFrames
  cases a.current <;> rfl

/-- Arenas that agree on the current frame and on the frames up to it have the same open frames. -/
theorem openFrames_congr {a b : Arena} (hcurrent : a.current = b.current)
    (h : ∀ i ∈ a.current, ∀ j ≤ i, a.frames[j]? = b.frames[j]?) : a.openFrames = b.openFrames := by
  rw [openFrames_eq, openFrames_eq, ← hcurrent]
  cases hi : a.current with
  | none => rfl
  | some i =>
      exact outward_congr (a.current_lt i hi) (b.current_lt i (hcurrent ▸ hi)) (h i hi)

@[simp] theorem tables_empty : empty.tables = [] := rfl

theorem openFrames_enter (a : Arena) :
    a.enter.openFrames = { parent := a.current } :: a.openFrames := by
  have hlt : a.frames.size < a.enter.frames.size := by simp [enter]
  have hframe : a.enter.frames[a.frames.size] = { parent := a.current } := by simp [enter]
  change a.enter.outward a.frames.size = _
  rw [outward_of_lt hlt, hframe, openFrames_eq]
  congr 1
  cases hcurrent : a.current with
  | none => rfl
  | some i =>
      have hi := a.current_lt i hcurrent
      refine outward_congr (Nat.lt_trans hi hlt) hi fun j hj => ?_
      have hj' := Nat.lt_of_le_of_lt hj hi
      exact (Array.getElem?_push_lt hj').trans (Array.getElem?_eq_getElem hj').symm

@[simp] theorem tables_enter (a : Arena) : a.enter.tables = [] :: a.tables := by
  rw [tables, openFrames_enter]
  rfl

@[simp] theorem tables_enterRoot (a : Arena) : a.enterRoot.tables = [] :: a.tables := by
  rw [← tables_enter]
  exact congrArg (List.map Frame.locals) (openFrames_congr rfl fun _ _ _ _ => rfl)

theorem openFrames_leave (a : Arena) : a.leave.openFrames = a.openFrames.tail := by
  rw [openFrames_eq, openFrames_eq]
  cases hcurrent : a.current with
  | none => simp [leave, hcurrent]
  | some i =>
      have hi := a.current_lt i hcurrent
      have hleave : a.leave.current = a.frames[i].parent := by
        simp [leave, hcurrent, Array.getElem?_eq_getElem hi]
      rw [hleave, Option.map_some, Option.getD_some, outward_of_lt hi, List.tail_cons]
      cases hparent : a.frames[i].parent with
      | none => rfl
      | some p =>
          have hp := Nat.lt_trans (a.parent_lt i hi p hparent) hi
          exact outward_congr hp hp fun _ _ => rfl

@[simp] theorem tables_leave (a : Arena) : a.leave.tables = a.tables.tail := by
  rw [tables, openFrames_leave, tables, List.map_tail]

theorem tables_of_current {a : Arena} {i : Nat} (h : a.current = some i) (hi : i < a.frames.size) :
    ∃ rest, a.tables = a.frames[i].locals :: rest := by
  rw [tables, openFrames_eq, h, Option.map_some, Option.getD_some, outward_of_lt hi]
  exact ⟨_, rfl⟩

/-- A local that is added to the current frame is added to the innermost table. -/
theorem tables_add {a : Arena} {i : Nat} (h : a.current = some i) (entry : LocalEntry) :
    (a.add i entry).tables = a.tables.modifyHead (entry :: ·) := by
  have hi := a.current_lt i h
  have hi' : i < (a.add i entry).frames.size := by simpa [add] using hi
  have hframe : (a.add i entry).frames[i] =
      { a.frames[i] with locals := entry :: a.frames[i].locals } :=
    Array.getElem_modify_self _ hi'
  rw [tables, tables, openFrames_eq, openFrames_eq, h, show (a.add i entry).current = some i from h,
    Option.map_some, Option.map_some, Option.getD_some, Option.getD_some, outward_of_lt hi,
    outward_of_lt hi', hframe]
  simp only [List.map_cons, List.modifyHead_cons]
  congr 2
  cases hparent : a.frames[i].parent with
  | none => rfl
  | some p =>
      have hp := a.parent_lt i hi p hparent
      refine outward_congr (Nat.lt_trans hp hi') (Nat.lt_trans hp hi) fun j hj => ?_
      refine Array.getElem?_modify.trans (if_neg ?_)
      exact Nat.ne_of_gt (Nat.lt_of_le_of_lt hj hp)

theorem getElem?_add (a : Arena) (i j : Nat) (entry : LocalEntry) :
    (a.add i entry).frames[j]? = (a.frames[j]?).map fun frame =>
      if i = j then { frame with locals := entry :: frame.locals } else frame := by
  by_cases hij : i = j
  · simp [add, Array.getElem?_modify, hij]
  · simp [add, Array.getElem?_modify, hij]

theorem visible_iff (a : Arena) (name : String) :
    a.visible name ↔ ∃ table ∈ a.tables, ∃ entry ∈ table, entry.name = name := by
  simp [visible, lookup?, tables, Frame.find?]

/-- A declaration extends the innermost table, or is refused because that table has the name. -/
theorem declare_meets (a : Arena) (entry : LocalEntry) (text : String) :
    Meets (fun fault => fault.cause = .declarationOutsideFragment ∨
        fault = ⟨.variableRedeclaration entry.name, text, entry.span⟩ ∧
          ∃ table ∈ a.tables.head?, ∃ other ∈ table, other.name = entry.name)
      (fun b => ∃ table rest, a.tables = table :: rest ∧
        (∀ other ∈ table, other.name ≠ entry.name) ∧ b.tables = (entry :: table) :: rest)
      (a.declare entry text) := by
  unfold declare
  split
  · exact .inl rfl
  next i hcurrent =>
    have hi := a.current_lt i hcurrent
    obtain ⟨rest, htables⟩ := tables_of_current hcurrent hi
    have hfind : ((a.frames[i]?).bind fun frame => frame.find? entry.name).isSome ↔
        ∃ other ∈ a.frames[i].locals, other.name = entry.name := by
      simp [Array.getElem?_eq_getElem hi, Frame.find?]
    split
    · exact .inl rfl
    · split
      next h => exact .inr ⟨rfl, _, by simp [htables], hfind.1 h⟩
      next h =>
        refine ⟨_, rest, htables, fun other hother hname => h (hfind.2 ⟨other, hother, hname⟩), ?_⟩
        rw [tables_add hcurrent, htables]
        rfl

end Arena

end Breakpoint
