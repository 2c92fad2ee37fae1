import Breakpoint.Proofs.Nodes
import Breakpoint.Proofs.Reading

/-!
Unambiguous texts. The text of a tree leaves out the types of constants, all of a method but its
name, constructors, the difference between the two kinds of plain variable, and whether the
condition of a loop was left out or is the word for true. It leaves out nothing else: trees with the
same text are the same without these, provided that their names and labels can be told from the
rest of the text.
-/

namespace Breakpoint

/-- A method of which only the name is known. -/
def MethodRef.named (name : String) : MethodRef := { (default : MethodRef) with name }

mutual

/-- What the text of a tree shows of it. -/
def Tree.shown : Tree → Tree
  | .literal value _ => .literal value .void
  | .localVar name slot => .localVar name slot.shown
  | .field object name filter => .field object.shown name filter
  | .thisAt depth => .thisAt depth
  | .superAt depth => .superAt depth
  | .typeRef ty => .typeRef ty
  | .classObject ty => .classObject ty
  | .call object method args => .call object.shown (.named method.name) (Tree.shownOfList args)
  | .newInstance c _ args => .newInstance c default (Tree.shownOfList args)
  | .newArray ty dimension elements =>
    .newArray ty (Tree.shownOfOption dimension) (Tree.shownOfListOption elements)
  | .element array index => .element array.shown index.shown
  | .assign target value yieldsOld => .assign target.shown value.shown yieldsOld
  | .binary op left right ty => .binary op left.shown right.shown ty
  | .unary op operand ty => .unary op operand.shown ty
  | .conditional condition thenValue elseValue =>
    .conditional condition.shown thenValue.shown elseValue.shown
  | .instanceOf operand ty => .instanceOf operand.shown ty
  | .cast operand ty => .cast operand.shown ty
  | .box operand kind => .box operand.shown kind
  | .unbox operand kind => .unbox operand.shown kind
  | .pin operand => .pin operand.shown
  | .block stmts => .block (Tree.shownOfList stmts)
  | .declare locals => .declare (LocalInit.shownOfList locals)
  | .ifElse label condition thenBranch elseBranch =>
    .ifElse label condition.shown thenBranch.shown (Tree.shownOfOption elseBranch)
  | .whileLoop label condition body => .whileLoop label condition.shown body.shown
  | .doLoop label body condition => .doLoop label body.shown condition.shown
  | .forLoop label init condition update body =>
    .forLoop label (Tree.shownOfList init) (some (Tree.shownOfCondition condition))
      (Tree.shownOfList update) body.shown
  | .breakTo label => .breakTo label
  | .continueTo label => .continueTo label
  | .returnValue value => .returnValue (Tree.shownOfOption value)
  | .throwValue value => .throwValue value.shown
  | .fragment stmts => .fragment (Tree.shownOfList stmts)

/-- The same for several trees. -/
def Tree.shownOfList : List Tree → List Tree
  | [] => []
  | t :: rest => t.shown :: Tree.shownOfList rest

/-- The same for a tree that may be missing. -/
def Tree.shownOfOption : Option Tree → Option Tree
  | none => none
  | some t => some t.shown

/-- The same for a list that may be missing. -/
def Tree.shownOfListOption : Option (List Tree) → Option (List Tree)
  | none => none
  | some trees => some (Tree.shownOfList trees)

/-- The condition of a loop; one that is missing looks like one that is true. -/
def Tree.shownOfCondition : Option Tree → Tree
  | none => .literal (.bool true) .void
  | some condition => condition.shown

/-- The same for a declared variable. -/
def LocalInit.shown : LocalInit → LocalInit
  | .mk name ty zero init => .mk name ty zero.shown (Tree.shownOfOption init)

/-- The same for several declared variables. -/
def LocalInit.shownOfList : List LocalInit → List LocalInit
  | [] => []
  | entry :: rest => entry.shown :: LocalInit.shownOfList rest

end

/-- The name and the type of a declared variable can be read. -/
def LocalInit.isClear : LocalInit → Bool
  | .mk name ty _ _ => isWord name && ty.isProper

/-- Everything that a text shows of the node itself can be read: names and labels are words, arrays
have a dimension, and constants are whole. -/
def Tree.isClear : Tree → Bool
  | .literal value _ => value.isWhole
  | .localVar name _ | .field _ name _ => isWord name
  | .call _ method _ => isWord method.name
  | .typeRef ty | .classObject ty | .newArray ty _ _ | .binary _ _ _ ty | .unary _ _ ty
  | .instanceOf _ ty | .cast _ ty => ty.isProper
  | .declare locals => locals.all LocalInit.isClear
  | .ifElse label _ _ _ | .whileLoop label _ _ | .doLoop label _ _ | .forLoop label _ _ _ _
  | .breakTo label | .continueTo label => label.all isWord
  | _ => true

/-- Everything in the tree can be read. -/
def Tree.Legible (t : Tree) : Prop := t.Every fun n => n.isClear

namespace BinaryOp

theorem ofSymbol?_symbol (op : BinaryOp) : ofSymbol? op.symbol = some op := by
  cases op <;> rfl

theorem symbol_injective {a b : BinaryOp} (h : a.symbol = b.symbol) : a = b :=
  Option.some.inj (by rw [← a.ofSymbol?_symbol, h, b.ofSymbol?_symbol])

theorem no_colon_symbol (op : BinaryOp) : op.symbol.toList.all (· ≠ ':') := by
  cases op <;> rfl

end BinaryOp

namespace UnaryOp

theorem ofSymbol?_symbol (op : UnaryOp) : ofSymbol? op.symbol = some op := by
  cases op <;> rfl

theorem symbol_injective {a b : UnaryOp} (h : a.symbol = b.symbol) : a = b :=
  Option.some.inj (by rw [← a.ofSymbol?_symbol, h, b.ofSymbol?_symbol])

theorem no_colon_symbol (op : UnaryOp) : op.symbol.toList.all (· ≠ ':') := by
  cases op <;> rfl

end UnaryOp

namespace Tree

theorem sexps_eq (trees : List Tree) : sexps trees = trees.map sexp := by
  induction trees with
  | nil => rfl
  | cons t rest ih => rw [sexps, ih, List.map_cons]

theorem sexpOption_eq (t : Option Tree) : sexpOption t = t.toList.map sexp := by
  cases t <;> rfl

/-- A loop without a condition is written like one whose condition is true. -/
theorem sexpCondition_eq (condition : Option Tree) :
    sexpCondition condition = (condition.getD (.literal (.bool true) .void)).sexp := by
  cases condition <;> rfl

theorem sexpLocals_eq (locals : List LocalInit) :
    LocalInit.sexps locals = locals.map LocalInit.sexp := by
  induction locals with
  | nil => rfl
  | cons entry rest ih => rw [LocalInit.sexps, ih, List.map_cons]

/-- The heads of the forms of trees, by the number of the constructor. Constants and locals are
atoms, and the heads of operations have a colon in them. -/
def heads : List (List String) :=
  [[], [], ["."], ["this"], ["super"], ["type"], ["class"], ["call"], ["new"], ["new-array"],
    ["[]"], ["=", "=post"], [], [], ["?"], ["instanceof"], ["cast"], ["box"], ["unbox"], ["pin"],
    ["block"], ["decl"], ["if"], ["while"], ["do"], ["for"], ["break"], ["continue"], ["return"],
    ["throw"], ["fragment"]]

/-- The constructor of the tree that an s-expression is written for, by its number. -/
def written : Sexp → Nat
  | .atom text => if (Constant.spelled? text.toList).isSome then 0 else 1
  | .form head args =>
    if head.toList.contains ':' then if args.length = 2 then 12 else 13
    else heads.findIdx fun names => names.contains head
  | .group _ | .braces _ => heads.length

theorem written_operation (symbol : String) (ty : Ty) (args : List Sexp) :
    written (.form (symbol ++ ":" ++ ty.render) args) = if args.length = 2 then 12 else 13 := by
  have hcolon : (symbol ++ ":" ++ ty.render).toList.contains ':' := by
    rw [String.toList_append, String.toList_append, List.contains_iff_mem]
    simp
  rw [written, if_pos hcolon]

theorem written_sexp {t : Tree} (h : t.isClear) : written t.sexp = t.ctorIdx := by
  cases t with
  | literal value ty => rw [sexp, written, Constant.spelled?_render h]; rfl
  | localVar name slot => rw [sexp, written, Slot.spelled?_mark h]; rfl
  | field object name filter => cases filter <;> rfl
  | assign target value yieldsOld => cases yieldsOld <;> rfl
  | binary op left right ty => exact written_operation op.symbol ty _
  | unary op operand ty => exact written_operation op.symbol ty _
  | _ => rfl

theorem legible_operation {symbol : String} (h : Sexp.Bare symbol) (ty : Ty) :
    Sexp.Bare (symbol ++ ":" ++ ty.render) :=
  (h.append (List.all_eq_true.1 (by decide))).append ty.bare_render.2

theorem legible_labelAtoms {label : Option String} (h : label.all isWord) :
    ∀ s ∈ labelAtoms label, s.Legible := by
  cases label with
  | none => exact List.forall_mem_nil _
  | some l =>
      have hl : Sexp.Bare ("@" ++ l) := Sexp.Bare.append (by decide) (bare_of_isWord h).2
      exact List.forall_mem_singleton.2 (.atom (.bare hl))

theorem legible_sexps {trees : List Tree} (h : ∀ t ∈ trees, t.sexp.Legible) :
    ∀ s ∈ sexps trees, s.Legible := by
  rw [sexps_eq]
  exact List.forall_mem_map.2 h

theorem legible_sexpOption {t : Option Tree} (h : ∀ s ∈ t.toList, s.sexp.Legible) :
    ∀ s ∈ sexpOption t, s.Legible := by
  rw [sexpOption_eq]
  exact List.forall_mem_map.2 h

theorem legible_local {entry : LocalInit} (hclear : entry.isClear)
    (h : ∀ t ∈ entry.trees, t.sexp.Legible) : entry.sexp.Legible := by
  obtain ⟨name, ty, zero, init⟩ := entry
  rw [LocalInit.isClear, Bool.and_eq_true] at hclear
  rw [LocalInit.trees, List.forall_mem_cons] at h
  refine .form ty.bare_render ?_
  rw [List.forall_mem_cons, List.forall_mem_cons]
  exact ⟨.atom (.bare (bare_of_isWord hclear.1)), h.1, legible_sexpOption h.2⟩

/-- A legible tree has a legible s-expression. -/
theorem legible_sexp (t : Tree) (h : t.Legible) : t.sexp.Legible := by
  induction t using Tree.children_induction with
  | step t ih =>
      obtain ⟨hclear, hchildren⟩ := every_iff.1 h
      replace ih : ∀ s ∈ t.children, s.sexp.Legible := fun s hs => ih s hs (hchildren s hs)
      clear h hchildren
      cases t with
      | literal value ty => exact .atom (Constant.token_render hclear)
      | localVar name slot => exact .atom (.bare (slot.bare_mark hclear))
      | field object name filter =>
          have hobject : object.sexp.Legible := ih object List.mem_cons_self
          have hname : (Sexp.atom name).Legible := .atom (.bare (bare_of_isWord hclear))
          cases filter with
          | any => exact .form (by decide) (by simp [hobject, hname])
          | declaredBy c =>
              have hc : (Sexp.atom c.render).Legible := .atom (.bare c.bare_render)
              exact .form (by decide) (by simp [hobject, hname, hc])
      | thisAt depth | superAt depth =>
          have hdepth : (Sexp.atom (toString depth)).Legible := .atom (.bare (bare_toString depth))
          exact .form (by decide) (List.forall_mem_singleton.2 hdepth)
      | typeRef ty | classObject ty =>
          have hty : (Sexp.atom ty.render).Legible := .atom (.bare ty.bare_render)
          exact .form (by decide) (List.forall_mem_singleton.2 hty)
      | call object method args =>
          rw [children, List.forall_mem_cons] at ih
          refine .form (by decide) ?_
          rw [List.forall_mem_cons, List.forall_mem_cons]
          exact ⟨ih.1, .atom (.bare (bare_of_isWord hclear)), legible_sexps ih.2⟩
      | newInstance c constructor args =>
          refine .form (by decide) ?_
          rw [List.forall_mem_cons]
          exact ⟨.atom (.bare c.bare_render), legible_sexps ih⟩
      | newArray ty dimension elements =>
          rw [children, List.forall_mem_append] at ih
          refine .form (by decide) ?_
          rw [List.cons_append, List.forall_mem_cons, List.forall_mem_append]
          refine ⟨.atom (.bare ty.bare_render), legible_sexpOption ih.1, ?_⟩
          cases elements with
          | none => exact List.forall_mem_nil _
          | some elements => exact List.forall_mem_singleton.2 (.braces (legible_sexps ih.2))
      | element array index | conditional condition thenValue elseValue | pin operand
      | throwValue operand =>
          exact .form (by decide) (by simpa [children] using ih)
      | assign target value yieldsOld =>
          have hhead : Sexp.Bare (if yieldsOld then "=post" else "=") := by
            cases yieldsOld <;> decide
          exact .form hhead (by simpa [children] using ih)
      | binary op left right ty =>
          have hop : Sexp.Bare op.symbol := by cases op <;> decide
          exact .form (legible_operation hop ty) (by simpa [children] using ih)
      | unary op operand ty =>
          have hop : Sexp.Bare op.symbol := by cases op <;> decide
          exact .form (legible_operation hop ty) (by simpa [children] using ih)
      | instanceOf operand ty | cast operand ty =>
          have hty : (Sexp.atom ty.render).Legible := .atom (.bare ty.bare_render)
          exact .form (by decide) (by simpa [children, hty] using ih)
      | box operand kind | unbox operand kind =>
          have hkind : (Sexp.atom kind.keyword).Legible := .atom (.bare kind.bare_keyword)
          exact .form (by decide) (by simpa [children, hkind] using ih)
      | block stmts | fragment stmts => exact .form (by decide) (legible_sexps ih)
      | declare locals =>
          refine .form (by decide) ?_
          rw [sexpLocals_eq, List.forall_mem_map]
          intro entry hentry
          exact legible_local (List.all_eq_true.1 hclear entry hentry) fun t ht =>
            ih t (List.mem_flatMap.2 ⟨entry, hentry, ht⟩)
      | ifElse label condition thenBranch elseBranch =>
          rw [children, List.forall_mem_cons, List.forall_mem_cons] at ih
          refine .form (by decide) ?_
          rw [List.forall_mem_append, List.forall_mem_cons, List.forall_mem_cons]
          exact ⟨legible_labelAtoms hclear, ih.1, ih.2.1, legible_sexpOption ih.2.2⟩
      | whileLoop label first second | doLoop label first second =>
          rw [children, List.forall_mem_cons, List.forall_mem_singleton] at ih
          refine .form (by decide) ?_
          rw [List.forall_mem_append, List.forall_mem_cons, List.forall_mem_singleton]
          exact ⟨legible_labelAtoms hclear, ih.1, ih.2⟩
      | forLoop label init condition update body =>
          simp only [children, List.forall_mem_append, List.forall_mem_singleton] at ih
          obtain ⟨⟨⟨hinit, hcondition⟩, hupdate⟩, hbody⟩ := ih
          have htest : (sexpCondition condition).Legible := by
            cases condition with
            | none => exact .atom (.bare (by decide))
            | some condition => exact hcondition condition (by simp)
          refine .form (by decide) ?_
          rw [List.forall_mem_append, List.forall_mem_cons, List.forall_mem_cons,
            List.forall_mem_cons, List.forall_mem_singleton]
          exact ⟨legible_labelAtoms hclear, .group (legible_sexps hinit), htest,
            .group (legible_sexps hupdate), hbody⟩
      | breakTo label | continueTo label =>
          refine .form (by decide) ?_
          cases label with
          | none => exact List.forall_mem_nil _
          | some l => exact List.forall_mem_singleton.2 (.atom (.bare (bare_of_isWord hclear)))
      | returnValue value => exact .form (by decide) (legible_sexpOption ih)

/-! ### Trees told by their s-expressions -/

/-- The root of the tree can be read, and the tree is told by its s-expression from all legible
trees that show something else. -/
structure Told (t : Tree) : Prop where
  isClear : t.isClear
  shown_eq : ∀ u : Tree, u.Legible → t.sexp = u.sexp → t.shown = u.shown

theorem Legible.isClear {t : Tree} (h : t.Legible) : t.isClear := (every_iff.1 h).1

theorem shownOfList_of_sexps_eq {trees others : List Tree} (ih : ∀ t ∈ trees, t.Told)
    (hothers : ∀ u ∈ others, u.Legible) (h : sexps trees = sexps others) :
    shownOfList trees = shownOfList others := by
  induction trees generalizing others with
  | nil =>
      cases others with
      | nil => rfl
      | cons u others => cases h
  | cons t rest ihrest =>
      cases others with
      | nil => cases h
      | cons u others =>
          rw [List.forall_mem_cons] at ih hothers
          obtain ⟨ht, hrest⟩ := List.cons_eq_cons.1 h
          rw [shownOfList, shownOfList, ih.1.shown_eq u hothers.1 ht, ihrest ih.2 hothers.2 hrest]

theorem shownOfOption_of_sexp_eq {t u : Option Tree} (ih : ∀ s ∈ t.toList, s.Told)
    (hu : ∀ s ∈ u.toList, s.Legible) (h : sexpOption t = sexpOption u) :
    shownOfOption t = shownOfOption u := by
  cases t with
  | none =>
      cases u with
      | none => rfl
      | some u => cases h
  | some t =>
      cases u with
      | none => cases h
      | some u =>
          exact congrArg some
            ((ih t (by simp)).shown_eq u (hu u (by simp)) (List.head_eq_of_cons_eq h))

theorem shownOfLocal_of_sexp_eq {entry other : LocalInit} (hclear : entry.isClear)
    (hother : other.isClear) (ih : ∀ t ∈ entry.trees, t.Told) (hu : ∀ u ∈ other.trees, u.Legible)
    (h : entry.sexp = other.sexp) : entry.shown = other.shown := by
  obtain ⟨name, ty, zero, init⟩ := entry
  obtain ⟨name', ty', zero', init'⟩ := other
  rw [LocalInit.isClear, Bool.and_eq_true] at hclear hother
  rw [LocalInit.trees, List.forall_mem_cons] at ih hu
  simp only [LocalInit.sexp, Sexp.form.injEq, List.cons.injEq, Sexp.atom.injEq] at h
  obtain ⟨hty, rfl, hzero, hinit⟩ := h
  rw [LocalInit.shown, LocalInit.shown, Ty.render_injective hclear.2 hother.2 hty,
    ih.1.shown_eq zero' hu.1 hzero, shownOfOption_of_sexp_eq ih.2 hu.2 hinit]

theorem shownOfLocals_of_sexps_eq {locals others : List LocalInit}
    (hclear : locals.all LocalInit.isClear) (hothers : others.all LocalInit.isClear)
    (ih : ∀ t ∈ locals.flatMap LocalInit.trees, t.Told)
    (hu : ∀ u ∈ others.flatMap LocalInit.trees, u.Legible)
    (h : LocalInit.sexps locals = LocalInit.sexps others) :
    LocalInit.shownOfList locals = LocalInit.shownOfList others := by
  induction locals generalizing others with
  | nil =>
      cases others with
      | nil => rfl
      | cons other others => cases h
  | cons entry rest ihrest =>
      cases others with
      | nil => cases h
      | cons other others =>
          rw [List.all_cons, Bool.and_eq_true] at hclear hothers
          rw [List.flatMap_cons, List.forall_mem_append] at ih hu
          obtain ⟨hentry, hrest⟩ := List.cons_eq_cons.1 h
          rw [LocalInit.shownOfList, LocalInit.shownOfList,
            shownOfLocal_of_sexp_eq hclear.1 hothers.1 ih.1 hu.1 hentry,
            ihrest hclear.2 hothers.2 ih.2 hu.2 hrest]

/-- The head of an operation tells its symbol, which has no colon, from its type. -/
theorem operation_inj {symbol symbol' : String} {ty ty' : Ty}
    (hsymbol : symbol.toList.all (· ≠ ':')) (hsymbol' : symbol'.toList.all (· ≠ ':'))
    (hty : ty.isProper) (hty' : ty'.isProper)
    (h : symbol ++ ":" ++ ty.render = symbol' ++ ":" ++ ty'.render) :
    symbol = symbol' ∧ ty = ty' := by
  have htext := congrArg String.toList h
  simp only [String.toList_append, List.append_assoc] at htext
  have hstop (rest : List Char) : ∀ c ∈ (":".toList ++ rest).head?, decide (c ≠ ':') = false := by
    rintro c ⟨⟩
    rfl
  obtain ⟨hsymbols, htypes⟩ :=
    append_inj_of_stop (List.all_eq_true.1 hsymbol) (List.all_eq_true.1 hsymbol') (hstop _)
      (hstop _) htext
  exact ⟨String.toList_inj.1 hsymbols,
    Ty.render_injective hty hty' (String.toList_inj.1 (List.append_cancel_left htypes))⟩

/-- No tree is written like a label. -/
theorem sexp_ne_label {t : Tree} (h : t.isClear) (label : String) :
    t.sexp ≠ .atom ("@" ++ label) := by
  have htext : ("@" ++ label).toList = '@' :: label.toList := by
    rw [String.toList_append]
    rfl
  cases t with
  | literal value ty =>
      intro heq
      have hword : "@" ++ label ∉ ["null", "true", "false"] := by
        intro hmem
        cases Constant.isAlpha_of_mem_words hmem '@' (htext ▸ List.mem_cons_self)
      have hspelled := Constant.spelled?_render h
      rw [Sexp.atom.inj heq, Constant.spelled?_eq_none htext rfl rfl (by decide) hword] at hspelled
      cases hspelled
  | localVar name slot =>
      intro heq
      obtain ⟨c, tail, hname, -⟩ := exists_cons_of_isWord h
      have hmark := congrArg String.toList (Sexp.atom.inj heq)
      rw [slot.mark_eq, String.toList_append, hname, htext] at hmark
      have hat : c = '@' := List.head_eq_of_cons_eq hmark
      exact (isPlain_of_isWord h c (hname ▸ List.mem_cons_self)).2.2.2 hat
  | field object name filter => cases filter <;> rintro ⟨⟩
  | _ => rintro ⟨⟩

theorem sexp_ne_braces (t : Tree) (items : List Sexp) : t.sexp ≠ .braces items := by
  cases t with
  | field object name filter => cases filter <;> rintro ⟨⟩
  | _ => rintro ⟨⟩

theorem labelAtoms_append_inj {label label' : Option String} {s t : Sexp} {xs ys : List Sexp}
    (hs : ∀ l, s ≠ .atom ("@" ++ l)) (ht : ∀ l, t ≠ .atom ("@" ++ l))
    (h : labelAtoms label ++ s :: xs = labelAtoms label' ++ t :: ys) :
    label = label' ∧ s = t ∧ xs = ys := by
  cases label with
  | none =>
      cases label' with
      | none =>
          obtain ⟨rfl, rfl⟩ := List.cons_eq_cons.1 h
          exact ⟨rfl, rfl, rfl⟩
      | some l' => exact (hs l' (List.head_eq_of_cons_eq h)).elim
  | some l =>
      cases label' with
      | none => exact (ht l (List.head_eq_of_cons_eq h).symm).elim
      | some l' =>
          obtain ⟨hlabel, hrest⟩ := List.cons_eq_cons.1 h
          obtain ⟨rfl, rfl⟩ := List.cons_eq_cons.1 hrest
          exact ⟨congrArg some ((String.append_right_inj "@").1 (Sexp.atom.inj hlabel)), rfl, rfl⟩

theorem shownOfElements_of_sexp_eq {elements elements' : Option (List Tree)}
    (ih : ∀ t ∈ elements.getD [], t.Told) (hu : ∀ u ∈ elements'.getD [], u.Legible)
    (h : sexpElements elements = sexpElements elements') :
    shownOfListOption elements = shownOfListOption elements' := by
  cases elements with
  | none =>
      cases elements' with
      | none => rfl
      | some elements' => cases h
  | some elements =>
      cases elements' with
      | none => cases h
      | some elements' =>
          exact congrArg some
            (shownOfList_of_sexps_eq ih hu (Sexp.braces.inj (List.head_eq_of_cons_eq h)))

/-- The length of a new array is told from its elements. -/
theorem sexpArray_inj {dimension dimension' : Option Tree} {elements elements' : Option (List Tree)}
    (h : sexpOption dimension ++ sexpElements elements =
      sexpOption dimension' ++ sexpElements elements') :
    sexpOption dimension = sexpOption dimension' ∧
      sexpElements elements = sexpElements elements' := by
  have hne {d : Tree} {elements : Option (List Tree)} {rest : List Sexp} :
      sexpElements elements ≠ d.sexp :: rest := by
    intro h
    cases elements with
    | none => cases h
    | some elements => exact d.sexp_ne_braces _ (List.head_eq_of_cons_eq h).symm
  cases dimension with
  | none =>
      cases dimension' with
      | none => exact ⟨rfl, h⟩
      | some d' => exact (hne h).elim
  | some d =>
      cases dimension' with
      | none => exact (hne h.symm).elim
      | some d' =>
          obtain ⟨hd, helements⟩ := List.cons_eq_cons.1 h
          exact ⟨congrArg (fun s => [s]) hd, helements⟩

theorem told_literal {value : Constant} (h : value.isWhole) (ty : Ty) :
    (literal value ty).Told := by
  refine ⟨h, fun u hu heq => ?_⟩
  have hclear : u.isClear := hu.isClear
  have hroot : u.ctorIdx = 0 := by
    rw [← written_sexp hclear, ← heq]
    exact @written_sexp (literal value ty) h
  revert heq hclear
  refine Tree.literal.elim u hroot fun value' ty' heq hclear => ?_
  rw [shown, shown, Constant.render_injective h hclear (Sexp.atom.inj heq)]

theorem shownOfCondition_of_sexp_eq {condition condition' : Option Tree}
    (ih : ∀ s ∈ condition.toList, s.Told) (hu : ∀ s ∈ condition'.toList, s.Legible)
    (h : sexpCondition condition = sexpCondition condition') :
    shownOfCondition condition = shownOfCondition condition' := by
  -- A missing condition is as good as the literal.
  have hshown (c : Option Tree) :
      shownOfCondition c = (c.getD (.literal (.bool true) .void)).shown := by
    cases c <;> rfl
  rw [sexpCondition_eq, sexpCondition_eq] at h
  rw [hshown, hshown]
  have htold : (condition.getD (.literal (.bool true) .void)).Told := by
    cases condition with
    | none => exact told_literal rfl .void
    | some c => exact ih c (by simp)
  refine htold.shown_eq _ ?_ h
  cases condition' with
  | none => exact every_iff.2 ⟨rfl, List.forall_mem_nil _⟩
  | some c => exact hu c (by simp)

/-- A legible tree is told by its s-expression. -/
theorem told (t : Tree) (ht : t.Legible) : t.Told := by
  induction t using Tree.children_induction with
  | step t ih =>
      obtain ⟨hclear, hchildren⟩ := every_iff.1 ht
      replace ih : ∀ s ∈ t.children, s.Told := fun s hs => ih s hs (hchildren s hs)
      clear ht hchildren
      refine ⟨hclear, fun u hlegible h => ?_⟩
      obtain ⟨hclear', hu⟩ := every_iff.1 hlegible
      -- The s-expression tells the constructor, so only trees with equal constructors are left.
      have hroot : t.ctorIdx = u.ctorIdx := by
        rw [← written_sexp hclear, h, written_sexp hclear']
      clear hlegible
      revert hclear ih h hclear' hu
      apply Tree.pair_cases hroot
      case literal =>
        intro value ty value' ty' hclear _ h hclear' _
        rw [shown, shown, Constant.render_injective hclear hclear' (Sexp.atom.inj h)]
      case localVar =>
        intro name slot name' slot' hclear _ h hclear' _
        obtain ⟨rfl, hslot⟩ := Slot.mark_inj hclear hclear' (Sexp.atom.inj h)
        rw [shown, shown, hslot]
      case field =>
        intro object name filter object' name' filter' _ ih h _ hu
        rw [children, List.forall_mem_singleton] at ih hu
        cases filter with
        | any =>
            cases filter' with
            | any =>
                simp only [sexp, Sexp.form.injEq, List.cons.injEq, Sexp.atom.injEq] at h
                obtain ⟨-, hobject, hname, -⟩ := h
                rw [shown, shown, ih.shown_eq object' hu hobject, hname]
            | declaredBy c' => simp [sexp] at h
        | declaredBy c =>
            cases filter' with
            | any => simp [sexp] at h
            | declaredBy c' =>
                simp only [sexp, Sexp.form.injEq, List.cons.injEq, Sexp.atom.injEq] at h
                obtain ⟨-, hobject, hname, hc, -⟩ := h
                rw [shown, shown, ih.shown_eq object' hu hobject, hname,
                  ClassId.render_injective hc]
      case thisAt | superAt =>
        intro depth depth' _ _ h _ _
        simp only [sexp, Sexp.form.injEq, List.cons.injEq, Sexp.atom.injEq] at h
        rw [Nat.repr_inj.1 h.2.1]
      case typeRef | classObject =>
        intro ty ty' hclear _ h hclear' _
        simp only [sexp, Sexp.form.injEq, List.cons.injEq, Sexp.atom.injEq] at h
        rw [Ty.render_injective hclear hclear' h.2.1]
      case call =>
        intro object method args object' method' args' _ ih h _ hu
        rw [children, List.forall_mem_cons] at ih hu
        simp only [sexp, Sexp.form.injEq, List.cons.injEq, Sexp.atom.injEq] at h
        obtain ⟨-, hobject, hname, hargs⟩ := h
        rw [shown, shown, ih.1.shown_eq object' hu.1 hobject, hname,
          shownOfList_of_sexps_eq ih.2 hu.2 hargs]
      case newInstance =>
        intro c constructor args c' constructor' args' _ ih h _ hu
        rw [children] at ih hu
        simp only [sexp, Sexp.form.injEq, List.cons.injEq, Sexp.atom.injEq] at h
        obtain ⟨-, hc, hargs⟩ := h
        rw [shown, shown, ClassId.render_injective hc, shownOfList_of_sexps_eq ih hu hargs]
      case newArray =>
        intro ty dimension elements ty' dimension' elements' hclear ih h hclear' hu
        rw [children, List.forall_mem_append] at ih hu
        simp only [sexp, Sexp.form.injEq, List.cons_append, List.cons.injEq, Sexp.atom.injEq] at h
        obtain ⟨-, hty, hparts⟩ := h
        obtain ⟨hdimension, helements⟩ := sexpArray_inj hparts
        rw [shown, shown, Ty.render_injective hclear hclear' hty,
          shownOfOption_of_sexp_eq ih.1 hu.1 hdimension,
          shownOfElements_of_sexp_eq ih.2 hu.2 helements]
      case element =>
        intro array index array' index' _ ih h _ hu
        rw [children, List.forall_mem_cons, List.forall_mem_singleton] at ih hu
        simp only [sexp, Sexp.form.injEq, List.cons.injEq] at h
        obtain ⟨-, harray, hindex, -⟩ := h
        rw [shown, shown, ih.1.shown_eq array' hu.1 harray, ih.2.shown_eq index' hu.2 hindex]
      case assign =>
        intro target value yieldsOld target' value' yieldsOld' _ ih h _ hu
        rw [children, List.forall_mem_cons, List.forall_mem_singleton] at ih hu
        simp only [sexp, Sexp.form.injEq, List.cons.injEq] at h
        obtain ⟨hhead, htarget, hvalue, -⟩ := h
        have hyieldsOld : yieldsOld = yieldsOld' := by
          cases yieldsOld <;> cases yieldsOld' <;> first | rfl | exact absurd hhead (by decide)
        rw [shown, shown, ih.1.shown_eq target' hu.1 htarget, ih.2.shown_eq value' hu.2 hvalue,
          hyieldsOld]
      case binary =>
        intro op left right ty op' left' right' ty' hclear ih h hclear' hu
        rw [children, List.forall_mem_cons, List.forall_mem_singleton] at ih hu
        simp only [sexp, Sexp.form.injEq, List.cons.injEq] at h
        obtain ⟨hhead, hleft, hright, -⟩ := h
        obtain ⟨hop, rfl⟩ :=
          operation_inj op.no_colon_symbol op'.no_colon_symbol hclear hclear' hhead
        rw [shown, shown, BinaryOp.symbol_injective hop, ih.1.shown_eq left' hu.1 hleft,
          ih.2.shown_eq right' hu.2 hright]
      case unary =>
        intro op operand ty op' operand' ty' hclear ih h hclear' hu
        rw [children, List.forall_mem_singleton] at ih hu
        simp only [sexp, Sexp.form.injEq, List.cons.injEq] at h
        obtain ⟨hhead, hoperand, -⟩ := h
        obtain ⟨hop, rfl⟩ :=
          operation_inj op.no_colon_symbol op'.no_colon_symbol hclear hclear' hhead
        rw [shown, shown, UnaryOp.symbol_injective hop, ih.shown_eq operand' hu hoperand]
      case conditional =>
        intro condition thenValue elseValue condition' thenValue' elseValue' _ ih h _ hu
        rw [children, List.forall_mem_cons, List.forall_mem_cons,
          List.forall_mem_singleton] at ih hu
        simp only [sexp, Sexp.form.injEq, List.cons.injEq] at h
        obtain ⟨-, hcondition, hthen, helse, -⟩ := h
        rw [shown, shown, ih.1.shown_eq condition' hu.1 hcondition,
          ih.2.1.shown_eq thenValue' hu.2.1 hthen, ih.2.2.shown_eq elseValue' hu.2.2 helse]
      case instanceOf =>
        intro operand ty operand' ty' hclear ih h hclear' hu
        rw [children, List.forall_mem_singleton] at ih hu
        simp only [sexp, Sexp.form.injEq, List.cons.injEq, Sexp.atom.injEq] at h
        obtain ⟨-, hoperand, hty, -⟩ := h
        rw [shown, shown, ih.shown_eq operand' hu hoperand, Ty.render_injective hclear hclear' hty]
      case cast =>
        intro operand ty operand' ty' hclear ih h hclear' hu
        rw [children, List.forall_mem_singleton] at ih hu
        simp only [sexp, Sexp.form.injEq, List.cons.injEq, Sexp.atom.injEq] at h
        obtain ⟨-, hty, hoperand, -⟩ := h
        rw [shown, shown, ih.shown_eq operand' hu hoperand, Ty.render_injective hclear hclear' hty]
      case box | unbox =>
        intro operand kind operand' kind' _ ih h _ hu
        rw [children, List.forall_mem_singleton] at ih hu
        simp only [sexp, Sexp.form.injEq, List.cons.injEq, Sexp.atom.injEq] at h
        obtain ⟨-, hkind, hoperand, -⟩ := h
        rw [shown, shown, ih.shown_eq operand' hu hoperand, Kind.keyword_injective hkind]
      case pin | throwValue =>
        intro operand operand' _ ih h _ hu
        rw [children, List.forall_mem_singleton] at ih hu
        simp only [sexp, Sexp.form.injEq, List.cons.injEq] at h
        rw [shown, shown, ih.shown_eq operand' hu h.2.1]
      case block | fragment =>
        intro stmts stmts' _ ih h _ hu
        rw [children] at ih hu
        rw [shown, shown, shownOfList_of_sexps_eq ih hu (Sexp.form.inj h).2]
      case declare =>
        intro locals locals' hclear ih h hclear' hu
        rw [shown, shown, shownOfLocals_of_sexps_eq hclear hclear' ih hu (Sexp.form.inj h).2]
      case ifElse =>
        -- A label and an else branch are told apart, as the condition is not written like a label.
        intro label condition thenBranch elseBranch label' condition' thenBranch' elseBranch' _ ih h
          _ hu
        rw [children, List.forall_mem_cons, List.forall_mem_cons] at ih hu
        obtain ⟨rfl, hcondition, hrest⟩ := labelAtoms_append_inj (sexp_ne_label ih.1.isClear)
          (sexp_ne_label (Legible.isClear hu.1)) (Sexp.form.inj h).2
        obtain ⟨hthen, helse⟩ := List.cons_eq_cons.1 hrest
        rw [shown, shown, ih.1.shown_eq condition' hu.1 hcondition,
          ih.2.1.shown_eq thenBranch' hu.2.1 hthen, shownOfOption_of_sexp_eq ih.2.2 hu.2.2 helse]
      case whileLoop | doLoop =>
        intro label first second label' first' second' _ ih h _ hu
        rw [children, List.forall_mem_cons, List.forall_mem_singleton] at ih hu
        obtain ⟨rfl, hfirst, hrest⟩ := labelAtoms_append_inj (sexp_ne_label ih.1.isClear)
          (sexp_ne_label (Legible.isClear hu.1)) (Sexp.form.inj h).2
        rw [shown, shown, ih.1.shown_eq first' hu.1 hfirst,
          ih.2.shown_eq second' hu.2 (List.head_eq_of_cons_eq hrest)]
      case forLoop =>
        intro label init condition update body label' init' condition' update' body' _ ih h _ hu
        simp only [children, List.forall_mem_append, List.forall_mem_singleton] at ih hu
        obtain ⟨⟨⟨ihinit, ihcondition⟩, ihupdate⟩, ihbody⟩ := ih
        obtain ⟨⟨⟨hinit', hcondition'⟩, hupdate'⟩, hbody'⟩ := hu
        obtain ⟨rfl, hinit, hrest⟩ :=
          labelAtoms_append_inj (by rintro _ ⟨⟩) (by rintro _ ⟨⟩) (Sexp.form.inj h).2
        simp only [List.cons.injEq, Sexp.group.injEq] at hrest
        obtain ⟨hcondition, hupdate, hbody, -⟩ := hrest
        rw [shown, shown, shownOfList_of_sexps_eq ihinit hinit' (Sexp.group.inj hinit),
          shownOfCondition_of_sexp_eq ihcondition hcondition' hcondition,
          shownOfList_of_sexps_eq ihupdate hupdate' hupdate, ihbody.shown_eq body' hbody' hbody]
      case breakTo | continueTo =>
        intro label label' _ _ h _ _
        have hlabels := (Sexp.form.inj h).2
        have hlabel : label = label' := by
          cases label <;> cases label' <;> simp_all
        rw [hlabel]
      case returnValue =>
        intro value value' _ ih h _ hu
        rw [shown, shown, shownOfOption_of_sexp_eq ih hu (Sexp.form.inj h).2]

end Tree

/-- The text of a tree is unambiguous up to what it leaves out. Trees without floating-point
constants and without arrays of no dimensions, whose names and labels are words, show the same if
their texts are equal. -/
theorem rendering_unambiguous (t u : Tree) (ht : t.Legible) (hu : u.Legible)
    (h : t.render = u.render) : t.shown = u.shown := by
  have hsexp : t.sexp = u.sexp :=
    Sexp.render_injective (t.legible_sexp ht) (u.legible_sexp hu) h
  exact (t.told ht).shown_eq u hu hsexp

/-- A loop that calls a method of a local with a constant text. -/
def Tree.logging (slot : Slot) (condition : Option Tree) (method : MethodRef) : Tree :=
  .forLoop (some "outer") [] condition []
    (.call (.localVar "log" slot) method [.literal (.string "a (b") .string])

/-- Two loops with the same text: one has a condition and the other has none, the locals are in
different places, and of the methods only the name is the same. -/
theorem rendering_unambiguous_logging :
    let t : Tree := .logging .frame none (.named "add")
    let u : Tree := .logging .fragment (some (.literal (.bool true) .boolean))
      { MethodRef.named "add" with isStatic := true }
    t.Legible ∧ u.Legible ∧ t.render = u.render ∧ t.shown = u.shown := by
  intro t u
  have ht : t.Legible := List.all_eq_true.1 (by decide)
  have hu : u.Legible := List.all_eq_true.1 (by decide)
  have hrender : t.render = u.render := congrArg Sexp.render rfl
  exact ⟨ht, hu, hrender, rendering_unambiguous t u ht hu hrender⟩

end Breakpoint
