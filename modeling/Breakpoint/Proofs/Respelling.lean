import Breakpoint.Proofs.Tables
import Breakpoint.Proofs.Lockstep
import Mathlib.Logic.Embedding.Basic

/-!
Respelling. The same code can be spelled in many ways: with other texts at other places, with other
names for the locals that it declares, with other labels. A respelling replaces all of these at
once, in what is compiled, in what it compiles to, and in the scopes and targets in between. What is
asked of names and labels is whether they are equal, so injective replacements change no answer.
-/

namespace Breakpoint

/-- Replacements for what is only spelling. Spans are put together to blame a stretch of source, so
the replacement of spans respects that. Constants may be replaced by others of their types, such as
one zero by the other, but those that compilation brings in by itself stay as they are. -/
structure Respelling where
  text : String → String := id
  span : Span → Span := id
  name : String ↪ String := .refl String
  label : String ↪ String := .refl String
  constant : Constant → Constant := id
  span_orElse : ∀ s t, span (s.orElse t) = (span s).orElse (span t) := by exact fun _ _ => rfl
  span_through : ∀ s t, span (s.through t) = (span s).through (span t) := by exact fun _ _ => rfl
  constant_ty : ∀ c, (constant c).ty = c.ty := by exact fun _ => rfl
  constant_one : constant (.int 1) = .int 1 := by rfl
  constant_zero : ∀ ty, constant (.zero ty) = .zero ty := by exact fun _ => rfl

def Excerpt.respell (r : Respelling) (excerpt : Excerpt) : Excerpt :=
  ⟨r.text excerpt.text, r.span excerpt.span⟩

def Note.respell (r : Respelling) (note : Note) : Note :=
  { note with excerpt := note.excerpt.respell r }

/-- A local keeps its name if it belongs to a method. -/
def LocalDecl.respell (r : Respelling) (d : LocalDecl) : LocalDecl :=
  { d with
    name := match d.origin with
      | .fragment => r.name d.name
      | .method _ => d.name
    constant? := d.constant?.map r.constant
    span := r.span d.span }

theorem LocalDecl.name_respell_of_fragment (r : Respelling) {d : LocalDecl}
    (h : d.origin = .fragment) : (d.respell r).name = r.name d.name := by
  simp [respell, h]

theorem LocalDecl.name_respell_of_method (r : Respelling) {d : LocalDecl} {declaring : ClassId}
    (h : d.origin = .method declaring) : (d.respell r).name = d.name := by
  simp [respell, h]

/-- Of the declarations only locals are spelled. -/
def Decl.respell (r : Respelling) : Decl → Decl
  | .localVar d => .localVar (d.respell r)
  | .field d => .field d
  | .method d => .method d
  | .type ty => .type ty
  | .unresolved => .unresolved

mutual

/-- An expression in another spelling. -/
def Expr.respell (r : Respelling) : Expr → Expr
  | .literal note value => .literal (note.respell r) (r.constant value)
  | .name note qualifier n decl =>
    .name (note.respell r) (Expr.respellOfOption r qualifier) n (decl.respell r)
  | .thisRef note qualifier => .thisRef (note.respell r) qualifier
  | .superRef note qualifier => .superRef (note.respell r) qualifier
  | .classLiteral note ty => .classLiteral (note.respell r) ty
  | .paren note inner => .paren (note.respell r) (inner.respell r)
  | .chain note operands ops => .chain (note.respell r) (Expr.respellOfList r operands) ops
  | .unary note op operand => .unary (note.respell r) op (operand.respell r)
  | .step note op form operand => .step (note.respell r) op form (operand.respell r)
  | .assign note op target value =>
    .assign (note.respell r) op (target.respell r) (value.respell r)
  | .conditional note condition thenValue elseValue =>
    .conditional (note.respell r) (condition.respell r) (thenValue.respell r) (elseValue.respell r)
  | .instanceOf note operand target => .instanceOf (note.respell r) (operand.respell r) target
  | .cast note target operand => .cast (note.respell r) target (operand.respell r)
  | .index note array position => .index (note.respell r) (array.respell r) (position.respell r)
  | .call note qualifier n method args =>
    .call (note.respell r) (Expr.respellOfOption r qualifier) n method (Expr.respellOfList r args)
  | .newInstance note c constructor outer args anonymous =>
    .newInstance (note.respell r) c constructor (Expr.respellOfOption r outer)
      (Expr.respellOfList r args) anonymous
  | .newArray note dims init =>
    .newArray (note.respell r) (Expr.respellOfList r dims) (Expr.respellOfOption r init)
  | .braces note elements => .braces (note.respell r) (Expr.respellOfList r elements)
  | .lambda note => .lambda (note.respell r)
  | .methodRef note => .methodRef (note.respell r)

/-- The same for several expressions. -/
def Expr.respellOfList (r : Respelling) : List Expr → List Expr
  | [] => []
  | e :: rest => e.respell r :: Expr.respellOfList r rest

/-- The same for an expression that may be missing. -/
def Expr.respellOfOption (r : Respelling) : Option Expr → Option Expr
  | none => none
  | some e => some (e.respell r)

end

/-- A declared variable in another spelling. Its name is replaced wherever it says it belongs to. -/
def Declarator.respell (r : Respelling) (var : Declarator) : Declarator where
  decl := { var.decl.respell r with name := r.name var.decl.name }
  init := var.init.map (Expr.respell r)
  span := r.span var.span

mutual

/-- A statement in another spelling. -/
def Stmt.respell (r : Respelling) : Stmt → Stmt
  | .empty excerpt => .empty (excerpt.respell r)
  | .expr excerpt e => .expr (excerpt.respell r) (e.respell r)
  | .decl excerpt vars => .decl (excerpt.respell r) (vars.map (Declarator.respell r))
  | .block excerpt stmts => .block (excerpt.respell r) (Stmt.respellOfList r stmts)
  | .ifElse excerpt condition thenBranch elseBranch =>
    .ifElse (excerpt.respell r) (condition.respell r) (thenBranch.respell r)
      (Stmt.respellOfOption r elseBranch)
  | .whileLoop excerpt condition body =>
    .whileLoop (excerpt.respell r) (condition.respell r) (body.respell r)
  | .doLoop excerpt body condition =>
    .doLoop (excerpt.respell r) (body.respell r) (condition.respell r)
  | .forLoop excerpt init condition update body =>
    .forLoop (excerpt.respell r) (Stmt.respellOfList r init) (condition.map (Expr.respell r))
      (update.map (Expr.respell r)) (body.respell r)
  | .breakTo excerpt label => .breakTo (excerpt.respell r) (label.map r.label)
  | .continueTo excerpt label => .continueTo (excerpt.respell r) (label.map r.label)
  | .returnValue excerpt value => .returnValue (excerpt.respell r) (value.map (Expr.respell r))
  | .throwValue excerpt value => .throwValue (excerpt.respell r) (value.respell r)
  | .labeled excerpt label body => .labeled (excerpt.respell r) (r.label label) (body.respell r)
  | .unsupported excerpt kind => .unsupported (excerpt.respell r) kind

/-- The same for a statement list. -/
def Stmt.respellOfList (r : Respelling) : List Stmt → List Stmt
  | [] => []
  | s :: rest => s.respell r :: Stmt.respellOfList r rest

/-- The same for a branch that may be missing. -/
def Stmt.respellOfOption (r : Respelling) : Option Stmt → Option Stmt
  | none => none
  | some s => some (s.respell r)

end

/-- Whatever is compiled, in another spelling. -/
def Source.respell (r : Respelling) : Source → Source
  | .expr e => .expr (e.respell r)
  | .stmt s => .stmt (s.respell r)
  | .fragment stmts => .fragment (Stmt.respellOfList r stmts)

namespace Expr

variable (r : Respelling)

theorem respellOfList_eq (exprs : List Expr) :
    respellOfList r exprs = exprs.map (respell r) := by
  induction exprs with
  | nil => rfl
  | cons e rest ih => rw [respellOfList, ih, List.map_cons]

theorem respellOfOption_eq (e : Option Expr) : respellOfOption r e = e.map (respell r) := by
  cases e <;> rfl

theorem note_respell (e : Expr) : (e.respell r).note = e.note.respell r := by
  cases e <;> rfl

theorem excerpt_respell (e : Expr) : (e.respell r).excerpt = e.excerpt.respell r :=
  congrArg Note.excerpt (e.note_respell r)

theorem ty?_respell (e : Expr) : (e.respell r).ty? = e.ty? := by
  rw [ty?, note_respell]
  rfl

theorem isTypeName_respell (e : Expr) : (e.respell r).isTypeName = e.isTypeName := by
  cases e with
  | name note qualifier n decl => cases decl <;> rfl
  | _ => rfl

theorem isBraces_respell (e : Expr) : (e.respell r).isBraces = e.isBraces := by
  cases e <;> rfl

/-- Copies in another spelling. -/
def Copier.ofRespelling : Copier where
  copy := respell r
  note := Note.respell r
  constant := r.constant
  decl := Decl.respell r
  copy_name _ q _ _ := by rw [respell, respellOfOption_eq]
  copy_chain _ xs _ := by rw [respell, respellOfList_eq]
  copy_call _ q _ _ args := by rw [respell, respellOfOption_eq, respellOfList_eq]
  copy_newInstance _ _ _ q args _ := by rw [respell, respellOfOption_eq, respellOfList_eq]
  copy_newArray _ dims init := by rw [respell, respellOfOption_eq, respellOfList_eq]
  copy_braces _ xs := by rw [respell, respellOfList_eq]

end Expr

namespace Stmt

variable (r : Respelling)

theorem respellOfList_eq (stmts : List Stmt) : respellOfList r stmts = stmts.map (respell r) := by
  induction stmts with
  | nil => rfl
  | cons s rest ih => rw [respellOfList, ih, List.map_cons]

theorem respellOfOption_eq (s : Option Stmt) : respellOfOption r s = s.map (respell r) := by
  cases s <;> rfl

/-- Copies in another spelling. -/
def Copier.ofRespelling : Copier where
  copy := respell r
  expr := Expr.respell r
  var := Declarator.respell r
  excerpt := Excerpt.respell r
  label := r.label
  copy_block _ stmts := by rw [respell, respellOfList_eq]
  copy_ifElse _ _ _ t := by rw [respell, respellOfOption_eq]
  copy_forLoop _ init _ _ _ := by rw [respell, respellOfList_eq]

end Stmt

theorem Source.respell_eq (r : Respelling) (source : Source) :
    source.respell r = source.copied (.ofRespelling r) := by
  cases source with
  | expr e => rfl
  | stmt s => rfl
  | fragment stmts => exact congrArg fragment (Stmt.respellOfList_eq r stmts)

/-! ### What it compiles to -/

mutual

/-- A tree in another spelling. Names are replaced where the compiled code declares the local. -/
def Tree.respell (r : Respelling) : Tree → Tree
  | .literal value ty => .literal (r.constant value) ty
  | .localVar n .fragment => .localVar (r.name n) .fragment
  | .localVar n slot => .localVar n slot
  | .field object n filter => .field (object.respell r) n filter
  | .thisAt depth => .thisAt depth
  | .superAt depth => .superAt depth
  | .typeRef ty => .typeRef ty
  | .classObject ty => .classObject ty
  | .call object method args => .call (object.respell r) method (Tree.respellOfList r args)
  | .newInstance c constructor args => .newInstance c constructor (Tree.respellOfList r args)
  | .newArray ty dimension elements =>
    .newArray ty (Tree.respellOfOption r dimension) (Tree.respellOfListOption r elements)
  | .element array index => .element (array.respell r) (index.respell r)
  | .assign target value yieldsOld => .assign (target.respell r) (value.respell r) yieldsOld
  | .binary op left right ty => .binary op (left.respell r) (right.respell r) ty
  | .unary op operand ty => .unary op (operand.respell r) ty
  | .conditional condition thenValue elseValue =>
    .conditional (condition.respell r) (thenValue.respell r) (elseValue.respell r)
  | .instanceOf operand ty => .instanceOf (operand.respell r) ty
  | .cast operand ty => .cast (operand.respell r) ty
  | .box operand kind => .box (operand.respell r) kind
  | .unbox operand kind => .unbox (operand.respell r) kind
  | .pin operand => .pin (operand.respell r)
  | .block stmts => .block (Tree.respellOfList r stmts)
  | .declare locals => .declare (LocalInit.respellOfList r locals)
  | .ifElse label condition thenBranch elseBranch =>
    .ifElse (label.map r.label) (condition.respell r) (thenBranch.respell r)
      (Tree.respellOfOption r elseBranch)
  | .whileLoop label condition body =>
    .whileLoop (label.map r.label) (condition.respell r) (body.respell r)
  | .doLoop label body condition =>
    .doLoop (label.map r.label) (body.respell r) (condition.respell r)
  | .forLoop label init condition update body =>
    .forLoop (label.map r.label) (Tree.respellOfList r init) (Tree.respellOfOption r condition)
      (Tree.respellOfList r update) (body.respell r)
  | .breakTo label => .breakTo (label.map r.label)
  | .continueTo label => .continueTo (label.map r.label)
  | .returnValue value => .returnValue (Tree.respellOfOption r value)
  | .throwValue value => .throwValue (value.respell r)
  | .fragment stmts => .fragment (Tree.respellOfList r stmts)

/-- The same for several trees. -/
def Tree.respellOfList (r : Respelling) : List Tree → List Tree
  | [] => []
  | t :: rest => t.respell r :: Tree.respellOfList r rest

/-- The same for a tree that may be missing. -/
def Tree.respellOfOption (r : Respelling) : Option Tree → Option Tree
  | none => none
  | some t => some (t.respell r)

/-- The same for a list that may be missing. -/
def Tree.respellOfListOption (r : Respelling) : Option (List Tree) → Option (List Tree)
  | none => none
  | some trees => some (Tree.respellOfList r trees)

/-- The same for a declared variable. -/
def LocalInit.respell (r : Respelling) : LocalInit → LocalInit
  | .mk n ty zero init => .mk (r.name n) ty (zero.respell r) (Tree.respellOfOption r init)

/-- The same for several declared variables. -/
def LocalInit.respellOfList (r : Respelling) : List LocalInit → List LocalInit
  | [] => []
  | entry :: rest => entry.respell r :: LocalInit.respellOfList r rest

end

namespace Tree

variable (r : Respelling)

theorem respellOfList_eq (trees : List Tree) : respellOfList r trees = trees.map (respell r) := by
  induction trees with
  | nil => rfl
  | cons t rest ih => rw [respellOfList, ih, List.map_cons]

theorem respellOfOption_eq (t : Option Tree) : respellOfOption r t = t.map (respell r) := by
  cases t <;> rfl

theorem respellOfListOption_eq (trees : Option (List Tree)) :
    respellOfListOption r trees = trees.map (List.map (respell r)) := by
  cases trees with
  | none => rfl
  | some trees => exact congrArg some (respellOfList_eq r trees)

theorem respellOfLocals_eq (locals : List LocalInit) :
    LocalInit.respellOfList r locals = locals.map (LocalInit.respell r) := by
  induction locals with
  | nil => rfl
  | cons entry rest ih => rw [LocalInit.respellOfList, ih, List.map_cons]

theorem respell_call (object : Tree) (m : MethodRef) (args : List Tree) :
    (call object m args).respell r = call (object.respell r) m (args.map (respell r)) :=
  congrArg (call _ m) (respellOfList_eq r args)

theorem respell_newInstance (c : ClassId) (m : MethodRef) (args : List Tree) :
    (newInstance c m args).respell r = newInstance c m (args.map (respell r)) :=
  congrArg (newInstance c m) (respellOfList_eq r args)

theorem respell_newArray (ty : Ty) (dimension : Option Tree) (elements : Option (List Tree)) :
    (newArray ty dimension elements).respell r =
      newArray ty (dimension.map (respell r)) (elements.map (List.map (respell r))) :=
  congrArg₂ (newArray ty) (respellOfOption_eq r dimension) (respellOfListOption_eq r elements)

theorem respell_block (stmts : List Tree) :
    (block stmts).respell r = block (stmts.map (respell r)) :=
  congrArg block (respellOfList_eq r stmts)

theorem respell_fragment (stmts : List Tree) :
    (fragment stmts).respell r = fragment (stmts.map (respell r)) :=
  congrArg fragment (respellOfList_eq r stmts)

theorem respell_declare (locals : List LocalInit) :
    (declare locals).respell r = declare (locals.map (LocalInit.respell r)) :=
  congrArg declare (respellOfLocals_eq r locals)

theorem respell_ifElse (label : Option String) (condition thenBranch : Tree)
    (elseBranch : Option Tree) :
    (ifElse label condition thenBranch elseBranch).respell r =
      ifElse (label.map r.label) (condition.respell r) (thenBranch.respell r)
        (elseBranch.map (respell r)) :=
  congrArg (ifElse _ _ _) (respellOfOption_eq r elseBranch)

theorem respell_forLoop (label : Option String) (init : List Tree) (condition : Option Tree)
    (update : List Tree) (body : Tree) :
    (forLoop label init condition update body).respell r =
      forLoop (label.map r.label) (init.map (respell r)) (condition.map (respell r))
        (update.map (respell r)) (body.respell r) := by
  rw [← respellOfList_eq, ← respellOfOption_eq, ← respellOfList_eq]
  rfl

theorem respell_returnValue (value : Option Tree) :
    (returnValue value).respell r = returnValue (value.map (respell r)) :=
  congrArg returnValue (respellOfOption_eq r value)

theorem isLvalue_respell (t : Tree) : (t.respell r).isLvalue = t.isLvalue := by
  cases t with
  | localVar n slot => cases slot <;> rfl
  | _ => rfl

end Tree

/-- The zero value of a declared variable is brought in by compilation. -/
theorem LocalInit.respell_mk_zero (r : Respelling) (n : String) (ty : Ty) (init : Option Tree) :
    (mk n ty (.literal (.zero ty) ty) init).respell r =
      mk (r.name n) ty (.literal (.zero ty) ty) (init.map (Tree.respell r)) :=
  congrArg₂ (fun value => mk (r.name n) ty (.literal value ty)) (r.constant_zero ty)
    (Tree.respellOfOption_eq r init)

def LocalEntry.respell (r : Respelling) (entry : LocalEntry) : LocalEntry :=
  ⟨r.name entry.name, entry.ty, r.span entry.span⟩

def Frame.respell (r : Respelling) (f : Frame) : Frame :=
  { f with locals := f.locals.map (LocalEntry.respell r) }

/-- The same frames, with other names for their locals. -/
def Arena.respell (r : Respelling) (a : Arena) : Arena where
  frames := a.frames.map (Frame.respell r)
  current := a.current
  root := a.root
  parent_lt := by
    intro i hi p hp
    rw [Array.getElem_map] at hp
    exact a.parent_lt i (by simpa using hi) p hp
  current_lt := by simpa using a.current_lt

theorem Frame.find?_respell (r : Respelling) (f : Frame) (name : String) :
    (f.respell r).find? (r.name name) = (f.find? name).map (LocalEntry.respell r) := by
  have hname : (fun entry : LocalEntry => entry.name == r.name name) ∘ LocalEntry.respell r =
      fun entry => entry.name == name := by
    funext entry
    simp [LocalEntry.respell]
  rw [find?, find?, respell, List.find?_map, hname]

attribute [ext] Arena

namespace Arena

variable (r : Respelling) (a : Arena)

theorem empty_respell : empty.respell r = empty := by
  ext1
  · exact Array.map_empty
  · rfl
  · rfl

theorem enter_respell : (a.respell r).enter = a.enter.respell r := by
  ext1
  · simp [enter, respell, Frame.respell]
  · simp [enter, respell]
  · rfl

theorem enterRoot_respell : (a.respell r).enterRoot = a.enterRoot.respell r := by
  ext1
  · simp [enterRoot, enter, respell, Frame.respell]
  · simp [enterRoot, enter, respell]
  · simp [enterRoot, nextIndex, respell]

theorem leave_respell : (a.respell r).leave = a.leave.respell r := by
  ext1
  · rfl
  · cases hcurrent : a.current with
    | none => simp [leave, respell, hcurrent]
    | some i => simp [leave, respell, hcurrent, Option.bind_map, Function.comp_def, Frame.respell]
  · rfl

theorem add_respell (i : Nat) (entry : LocalEntry) :
    (a.respell r).add i (entry.respell r) = (a.add i entry).respell r := by
  ext1
  · apply Array.ext
    · simp [add, respell]
    · intro j _ _
      simp only [add, respell, Array.getElem_modify, Array.getElem_map]
      split <;> rfl
  · rfl
  · rfl

theorem outward_respell (i : Nat) :
    (a.respell r).outward i = (a.outward i).map (Frame.respell r) := by
  -- By induction on the index, which falls along the way outwards.
  by_cases hi : i < a.frames.size
  · have hi' : i < (a.respell r).frames.size := by simpa [respell] using hi
    have hframe : (a.respell r).frames[i] = a.frames[i].respell r := by simp [respell]
    rw [outward_of_lt hi, outward_of_lt hi', hframe, List.map_cons]
    congr 1
    change (a.frames[i].parent.map _).getD [] = _
    cases hparent : a.frames[i].parent with
    | none => rfl
    | some p =>
        have hp : p < i := a.parent_lt i hi p hparent
        exact outward_respell p
  · have hi' : ¬i < (a.respell r).frames.size := by simpa [respell] using hi
    rw [outward, outward, dif_neg hi, dif_neg hi', List.map_nil]
termination_by i

theorem openFrames_respell : (a.respell r).openFrames = a.openFrames.map (Frame.respell r) := by
  rw [openFrames_eq, openFrames_eq]
  change (a.current.map _).getD [] = _
  cases a.current with
  | none => rfl
  | some i => exact outward_respell r a i

theorem lookup?_respell (name : String) :
    (a.respell r).lookup? (r.name name) = (a.lookup? name).map (LocalEntry.respell r) := by
  have hfind : (fun frame : Frame => frame.find? (r.name name)) ∘ Frame.respell r =
      Option.map (LocalEntry.respell r) ∘ fun frame => frame.find? name :=
    funext fun frame => frame.find?_respell r name
  rw [lookup?, lookup?, openFrames_respell, List.findSome?_map, hfind, List.map_findSome?]

/-- A local is visible under its new name. -/
theorem visible_respell (name : String) : (a.respell r).visible (r.name name) = a.visible name := by
  rw [visible, visible, lookup?_respell, Option.isSome_map]

end Arena

def JumpTarget.respell (r : Respelling) (target : JumpTarget) : JumpTarget :=
  { target with label := target.label.map r.label }

def Jumps.respell (r : Respelling) (j : Jumps) : Jumps := ⟨j.targets.map (JumpTarget.respell r)⟩

theorem Jumps.find?_respell (r : Respelling) (j : Jumps) (label : String) :
    (j.respell r).find? (r.label label) = (j.find? label).map (JumpTarget.respell r) := by
  have hlabel : (fun target : JumpTarget => target.label == some (r.label label)) ∘
      JumpTarget.respell r = fun target => target.label == some label := by
    funext target
    cases htarget : target.label <;> simp [JumpTarget.respell, htarget]
  rw [find?, find?, respell, List.find?_map, hlabel]

theorem Jumps.inLoop_respell (r : Respelling) (j : Jumps) : (j.respell r).inLoop = j.inLoop := by
  rw [inLoop, inLoop, respell, List.any_map]
  rfl

theorem Jumps.leave_respell (r : Respelling) (j : Jumps) :
    (j.respell r).leave = j.leave.respell r :=
  congrArg Jumps.mk List.map_drop.symm

/-- The context with its scopes and targets in another spelling. -/
def Context.respell (r : Respelling) (c : Context) : Context :=
  { c with arena := c.arena.respell r, jumps := c.jumps.respell r }

namespace Context

variable (r : Respelling) (c : Context)

theorem start_respell (site : Site) : (start site).respell r = start site := by
  rw [respell, start, Arena.empty_respell]
  rfl

theorem enterFrame_respell : (c.respell r).enterFrame = c.enterFrame.respell r := by
  rw [enterFrame, respell, Arena.enter_respell]
  rfl

theorem enterRoot_respell : (c.respell r).enterRoot = c.enterRoot.respell r := by
  rw [enterRoot, respell, Arena.enterRoot_respell]
  rfl

theorem leaveFrame_respell : (c.respell r).leaveFrame = c.leaveFrame.respell r := by
  rw [leaveFrame, respell, Arena.leave_respell]
  rfl

theorem leaveTarget_respell : (c.respell r).leaveTarget = c.leaveTarget.respell r := by
  rw [leaveTarget, respell, Jumps.leave_respell]
  rfl

end Context

end Breakpoint
