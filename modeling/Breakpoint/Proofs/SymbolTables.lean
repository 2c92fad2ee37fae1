import Breakpoint.Proofs.Tables

/-!
The arena refines a stack of symbol tables. Seen from outside, entering a frame pushes an empty
table, leaving one drops the innermost table, and a declaration adds to the innermost table or is
refused. Frames that were left stay in the arena, and of nested statement lists it records one root
only. Both do no harm: parent links lead from the current frame through the open frames alone, and
the root is the outermost open frame of a statement list, so it is given up with the last of them.
-/

namespace Breakpoint

/-- An operation on the scopes of declared locals. -/
inductive ScopeOp where
  | enterRoot
  | enter
  | leave
  | declare (entry : LocalEntry) (text : String)
deriving DecidableEq, Repr

/-- The locals of a scope, by name. The scope of a whole statement list is marked. -/
structure SymbolTable where
  marked : Bool
  entry? : String → Option LocalEntry := fun _ => none

def SymbolTable.add (table : SymbolTable) (entry : LocalEntry) : SymbolTable :=
  { table with entry? := fun name => if entry.name = name then some entry else table.entry? name }

/-- The tables of the open scopes, innermost first. -/
abbrev SymbolStack := List SymbolTable

namespace SymbolStack

def inFragment (stack : SymbolStack) : Bool := stack.any SymbolTable.marked

def lookup? (stack : SymbolStack) (name : String) : Option LocalEntry :=
  stack.findSome? fun table => table.entry? name

/-- Without a marked table nothing can be declared; otherwise the innermost table gets the entry,
unless it has the name. -/
def declare (stack : SymbolStack) (entry : LocalEntry) (text : String) :
    Except Fault SymbolStack :=
  match stack with
  | [] => Excerpt.refuse ⟨text, entry.span⟩ .declarationOutsideFragment
  | top :: rest =>
    if !stack.inFragment then Excerpt.refuse ⟨text, entry.span⟩ .declarationOutsideFragment
    else if (top.entry? entry.name).isSome then
      Excerpt.refuse ⟨text, entry.span⟩ (.variableRedeclaration entry.name)
    else .ok (top.add entry :: rest)

/-- The answer to an operation and the stack after it; a refusal changes nothing. -/
def step (stack : SymbolStack) : ScopeOp → Except Fault Unit × SymbolStack
  | .enterRoot => (.ok (), { marked := true } :: stack)
  | .enter => (.ok (), { marked := false } :: stack)
  | .leave => (.ok (), stack.tail)
  | .declare entry text =>
    match stack.declare entry text with
    | .ok stack' => (.ok (), stack')
    | .error fault => (.error fault, stack)

end SymbolStack

/-- The answer to an operation and the arena after it, which a refusal leaves as it was. -/
def Arena.step (a : Arena) : ScopeOp → Except Fault Unit × Arena
  | .enterRoot => (.ok (), a.enterRoot)
  | .enter => (.ok (), a.enter)
  | .leave => (.ok (), a.leave)
  | .declare entry text =>
    match a.declare entry text with
    | .ok a' => (.ok (), a')
    | .error fault => (.error fault, a)

/-- The answers to several operations in a row, and the state after them. -/
def ScopeOp.runAll {σ : Type} (step : σ → ScopeOp → Except Fault Unit × σ) (s : σ) :
    List ScopeOp → List (Except Fault Unit) × σ
  | [] => ([], s)
  | op :: ops =>
    let later := runAll step (step s op).2 ops
    ((step s op).1 :: later.1, later.2)

namespace Arena

/-- From a starting point, if there is one, the parent links lead through the frames of these
indices, each of which exists, and then come to an end. -/
inductive Walk (a : Arena) : Option Nat → List Nat → Prop where
  | done : Walk a none []
  | step {i : Nat} {frame : Frame} {rest : List Nat} (hframe : a.frames[i]? = some frame)
      (hrest : Walk a frame.parent rest) : Walk a (some i) (i :: rest)

variable {a b : Arena} {start : Option Nat} {walk : List Nat} {i : Nat}

/-- Indices fall along the way. -/
theorem Walk.lt (h : a.Walk start walk) {bound : Nat} (hstart : ∀ i ∈ start, i < bound) :
    ∀ j ∈ walk, j < bound := by
  induction h generalizing bound with
  | done => simp
  | @step i frame rest hframe _ ih =>
      have hi := hstart i rfl
      obtain ⟨hlt, rfl⟩ := Array.getElem?_eq_some_iff.1 hframe
      have hrest := ih fun p hp => Nat.lt_trans (a.parent_lt i hlt p hp) hi
      exact List.forall_mem_cons.2 ⟨hi, hrest⟩

theorem Walk.pairwise (h : a.Walk start walk) : walk.Pairwise (· > ·) := by
  induction h with
  | done => exact .nil
  | @step i frame rest hframe hrest ih =>
      obtain ⟨hlt, rfl⟩ := Array.getElem?_eq_some_iff.1 hframe
      exact .cons (hrest.lt (a.parent_lt i hlt)) ih

theorem Walk.frames (h : a.Walk start walk) :
    walk.map (a.frames[·]?) = ((start.map a.outward).getD []).map some := by
  induction h with
  | done => rfl
  | @step i frame rest hframe _ ih =>
      obtain ⟨hlt, rfl⟩ := Array.getElem?_eq_some_iff.1 hframe
      rw [List.map_cons, ih, hframe, Option.map_some, Option.getD_some, outward_of_lt hlt]
      rfl

theorem Walk.openFrames (h : a.Walk a.current walk) :
    walk.map (a.frames[·]?) = a.openFrames.map some := by
  rw [h.frames, openFrames_eq]

/-- Only the parents matter. -/
theorem Walk.congr (h : a.Walk start walk)
    (hparent : ∀ (i : Nat) (frame : Frame), a.frames[i]? = some frame →
      ∃ frame', b.frames[i]? = some frame' ∧ frame'.parent = frame.parent) :
    b.Walk start walk := by
  induction h with
  | done => exact .done
  | @step i frame rest hframe _ ih =>
      obtain ⟨frame', hframe', heq⟩ := hparent i frame hframe
      exact .step hframe' (heq ▸ ih)

theorem Walk.enter (h : a.Walk a.current walk) :
    a.enter.Walk a.enter.current (a.frames.size :: walk) := by
  have hframe : a.enter.frames[a.frames.size]? = some { parent := a.current } :=
    Array.getElem?_push_size
  refine .step hframe (h.congr fun i frame hi => ⟨frame, ?_, rfl⟩)
  obtain ⟨hlt, rfl⟩ := Array.getElem?_eq_some_iff.1 hi
  exact Array.getElem?_push_lt hlt

theorem Walk.add (h : a.Walk start walk) (i : Nat) (entry : LocalEntry) :
    (a.add i entry).Walk start walk := by
  refine h.congr fun j frame hj => ?_
  rw [getElem?_add, hj]
  refine ⟨_, rfl, ?_⟩
  split <;> rfl

/-! ### Refinement -/

/-- The last marked table of the stack, as an index of the walk. -/
def outermost : List Nat → SymbolStack → Option Nat
  | i :: walk, table :: stack => (outermost walk stack).or (if table.marked then some i else none)
  | _, _ => none

theorem mem_of_outermost {stack : SymbolStack} (h : outermost walk stack = some i) : i ∈ walk := by
  induction walk generalizing stack with
  | nil => cases h
  | cons j walk ih =>
      cases stack with
      | nil => cases h
      | cons table stack =>
          rw [outermost] at h
          rcases Option.or_eq_some_iff.1 h with h | ⟨-, h⟩
          · exact List.mem_cons_of_mem _ (ih h)
          · split at h
            · cases h
              exact List.mem_cons_self
            · cases h

theorem isSome_outermost {stack : SymbolStack} (h : walk.length = stack.length) :
    (outermost walk stack).isSome = stack.inFragment := by
  induction walk generalizing stack with
  | nil =>
      rw [List.eq_nil_of_length_eq_zero h.symm]
      rfl
  | cons i walk ih =>
      cases stack with
      | nil => cases h
      | cons table stack =>
          rw [outermost, Option.isSome_or, ih (Nat.succ.inj h), Bool.or_comm]
          cases hmarked : table.marked <;> simp [SymbolStack.inFragment, hmarked]

/-- The entry of a name among the locals of a frame. -/
def entryOf? (locals : List LocalEntry) (name : String) : Option LocalEntry :=
  locals.find? fun entry => entry.name == name

theorem entryOf?_cons (entry : LocalEntry) (locals : List LocalEntry) (name : String) :
    entryOf? (entry :: locals) name =
      if entry.name = name then some entry else entryOf? locals name := by
  by_cases hname : entry.name = name <;> simp [entryOf?, hname]

/-- The arena shows the entries of the stack, and its root is the outermost marked frame. -/
structure Refines (a : Arena) (stack : SymbolStack) : Prop where
  entries : a.tables.map entryOf? = stack.map SymbolTable.entry?
  root : ∃ walk, a.Walk a.current walk ∧ a.root = outermost walk stack

variable {stack : SymbolStack}

theorem Refines.depth (h : a.Refines stack) : a.depth = stack.length := by
  have hlength := congrArg List.length h.entries
  rw [List.length_map, List.length_map, tables, List.length_map] at hlength
  exact hlength

theorem Refines.length_walk (h : a.Refines stack) (hwalk : a.Walk a.current walk) :
    walk.length = stack.length := by
  have hlength := congrArg List.length hwalk.openFrames
  rw [List.length_map, List.length_map] at hlength
  exact hlength.trans h.depth

theorem Refines.inFragment (h : a.Refines stack) : a.inFragment = stack.inFragment := by
  obtain ⟨walk, hwalk, hroot⟩ := h.root
  rw [Arena.inFragment, hroot, isSome_outermost (h.length_walk hwalk)]

theorem Refines.lookup? (h : a.Refines stack) (name : String) :
    a.lookup? name = stack.lookup? name := by
  calc a.lookup? name
      = (a.tables.map entryOf?).findSome? (fun find => find name) := by
        rw [tables, List.map_map, List.findSome?_map]
        rfl
    _ = (stack.map SymbolTable.entry?).findSome? (fun find => find name) := by rw [h.entries]
    _ = stack.lookup? name := by
        rw [List.findSome?_map]
        rfl

theorem refines_empty : empty.Refines [] := ⟨rfl, [], .done, rfl⟩

theorem Refines.enter (h : a.Refines stack) : a.enter.Refines ({ marked := false } :: stack) := by
  obtain ⟨walk, hwalk, hroot⟩ := h.root
  refine ⟨?_, _, hwalk.enter, ?_⟩
  · rw [tables_enter, List.map_cons, List.map_cons, h.entries]
    rfl
  · rw [outermost, if_neg Bool.false_ne_true, Option.or_none]
    exact hroot

theorem Refines.enterRoot (h : a.Refines stack) :
    a.enterRoot.Refines ({ marked := true } :: stack) := by
  obtain ⟨walk, hwalk, hroot⟩ := h.root
  refine ⟨?_, a.frames.size :: walk, ?_, ?_⟩
  · rw [tables_enterRoot, List.map_cons, List.map_cons, h.entries]
    rfl
  · exact hwalk.enter.congr fun i frame hframe => ⟨frame, hframe, rfl⟩
  · rw [outermost, if_pos rfl, ← hroot]
    rfl

theorem Refines.leave (h : a.Refines stack) : a.leave.Refines stack.tail := by
  obtain ⟨walk, hwalk, hroot⟩ := h.root
  have hlength := h.length_walk hwalk
  refine ⟨by rw [tables_leave, List.map_tail, h.entries, List.map_tail], walk.tail, ?_⟩
  cases hcurrent : a.current with
  | none =>
      rw [hcurrent] at hwalk
      cases hwalk
      refine ⟨?_, by simpa [Arena.leave, hcurrent, outermost] using hroot⟩
      simpa [Arena.leave, hcurrent] using Walk.done
  | some i =>
      rw [hcurrent] at hwalk
      cases hwalk with
      | @step _ frame rest hframe hrest =>
          have hleave : a.leave.current = frame.parent := by simp [Arena.leave, hcurrent, hframe]
          refine ⟨hleave ▸ hrest.congr fun j frame hj => ⟨frame, hj, rfl⟩, ?_⟩
          cases stack with
          | nil => cases hlength
          | cons top stack =>
              rw [outermost] at hroot
              simp only [Arena.leave, hcurrent, hroot, List.tail_cons]
              -- The frames around the current one have smaller indices, so it is the root only
              -- if none of them is marked.
              cases houter : outermost rest stack with
              | none => cases top.marked <;> simp
              | some r =>
                  obtain ⟨hlt, rfl⟩ := Array.getElem?_eq_some_iff.1 hframe
                  have hr := hrest.lt (a.parent_lt i hlt) r (mem_of_outermost houter)
                  simp [Nat.ne_of_gt hr]

theorem Refines.add (h : a.Refines stack) (hcurrent : a.current = some i) (entry : LocalEntry) :
    (a.add i entry).Refines (stack.modifyHead (·.add entry)) := by
  obtain ⟨walk, hwalk, hroot⟩ := h.root
  have hentries := h.entries
  refine ⟨?_, walk, hwalk.add i entry, ?_⟩
  · rw [tables_add hcurrent]
    cases htables : a.tables with
    | nil =>
        rw [htables] at hentries
        cases stack with
        | nil => rfl
        | cons => cases hentries
    | cons table tables =>
        rw [htables] at hentries
        cases stack with
        | nil => cases hentries
        | cons top rest =>
            obtain ⟨htop, hrest⟩ := List.cons.inj hentries
            refine List.cons_eq_cons.2 ⟨?_, hrest⟩
            funext name
            rw [entryOf?_cons, htop]
            rfl
  · cases stack with
    | nil => exact hroot
    | cons top rest =>
        cases walk with
        | nil => exact hroot
        | cons => exact hroot

theorem Refines.declare (h : a.Refines stack) (entry : LocalEntry) (text : String) :
    (∃ fault, a.declare entry text = .error fault ∧ stack.declare entry text = .error fault) ∨
      ∃ a' stack', a.declare entry text = .ok a' ∧ stack.declare entry text = .ok stack' ∧
        a'.Refines stack' := by
  have hfragment := h.inFragment
  have hentries := h.entries
  unfold Arena.declare SymbolStack.declare
  cases hcurrent : a.current with
  | none =>
      have htables : a.tables = [] := by rw [tables, openFrames_eq, hcurrent]; rfl
      cases stack with
      | nil => exact .inl ⟨_, rfl, rfl⟩
      | cons => simp [htables] at hentries
  | some i =>
      have hi := a.current_lt i hcurrent
      obtain ⟨tables, htables⟩ := tables_of_current hcurrent hi
      rw [htables] at hentries
      cases stack with
      | nil => cases hentries
      | cons top rest =>
          obtain ⟨htop, -⟩ := List.cons.inj hentries
          have hfind : ((a.frames[i]?).bind fun frame => frame.find? entry.name) =
              top.entry? entry.name := by
            rw [← htop, Array.getElem?_eq_getElem hi]
            rfl
          dsimp only
          rw [hfind, hfragment]
          split
          · exact .inl ⟨_, rfl, rfl⟩
          · split
            · exact .inl ⟨_, rfl, rfl⟩
            · exact .inr ⟨_, _, rfl, rfl, h.add hcurrent entry⟩

/-- One operation: the arena answers as the stack does and goes on refining it. -/
theorem Refines.step (h : a.Refines stack) (op : ScopeOp) :
    (a.step op).1 = (stack.step op).1 ∧ (a.step op).2.Refines (stack.step op).2 := by
  cases op with
  | enterRoot => exact ⟨rfl, h.enterRoot⟩
  | enter => exact ⟨rfl, h.enter⟩
  | leave => exact ⟨rfl, h.leave⟩
  | declare entry text =>
      rcases h.declare entry text with ⟨fault, ha, hstack⟩ | ⟨a', stack', ha, hstack, h'⟩
      · simpa [Arena.step, SymbolStack.step, ha, hstack] using h
      · simpa [Arena.step, SymbolStack.step, ha, hstack] using h'

theorem Refines.runAll (h : a.Refines stack) (ops : List ScopeOp) :
    (ScopeOp.runAll Arena.step a ops).1 = (ScopeOp.runAll SymbolStack.step stack ops).1 ∧
      (ScopeOp.runAll Arena.step a ops).2.Refines
        (ScopeOp.runAll SymbolStack.step stack ops).2 := by
  induction ops generalizing a stack with
  | nil => exact ⟨rfl, h⟩
  | cons op ops ih =>
      obtain ⟨hanswer, hstep⟩ := h.step op
      obtain ⟨hanswers, hrun⟩ := ih hstep
      exact ⟨List.cons_eq_cons.2 ⟨hanswer, hanswers⟩, hrun⟩

end Arena

/-- Whatever operations are made, in whatever order, the arena answers each of them as the stack of
symbol tables does. Afterwards it shows the depth of the stack, whether a marked table is on it, and
for each name the entry of the innermost table that has one; to find them it follows parent links
through existing frames of falling index, until there is no parent. -/
theorem arena_refines_stack (ops : List ScopeOp) :
    let run := ScopeOp.runAll Arena.step .empty ops
    let spec := ScopeOp.runAll SymbolStack.step [] ops
    run.1 = spec.1 ∧ run.2.depth = spec.2.length ∧ run.2.inFragment = spec.2.inFragment ∧
      (∀ name, run.2.lookup? name = spec.2.lookup? name) ∧
      ∃ walk, run.2.Walk run.2.current walk ∧ walk.Pairwise (· > ·) ∧
        (∀ i ∈ walk, i < run.2.frames.size) ∧
        run.2.openFrames.map some = walk.map (run.2.frames[·]?) := by
  intro run spec
  obtain ⟨hanswers, hrefines⟩ := Arena.refines_empty.runAll ops
  obtain ⟨walk, hwalk, -⟩ := hrefines.root
  refine ⟨hanswers, hrefines.depth, hrefines.inFragment, hrefines.lookup?, walk, hwalk,
    hwalk.pairwise, hwalk.lt run.2.current_lt, hwalk.openFrames.symm⟩

end Breakpoint
