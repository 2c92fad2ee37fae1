import Breakpoint.Proofs.Replacement

/-!
Parentheses. They pass the role of an expression on to what is inside them, and all else that is
asked of an expression, its type and whether it is the name of a type or a brace list, is the same
for what is inside. So an expression without its parentheses compiles to the same tree, or is
refused for the same cause; only the excerpts that are blamed may differ.
-/

namespace Breakpoint

mutual

/-- The expression without parentheses, at any depth. -/
def Expr.bare : Expr → Expr
  | .literal note value => .literal note value
  | .name note qualifier n decl => .name note (Expr.bareOfOption qualifier) n decl
  | .thisRef note qualifier => .thisRef note qualifier
  | .superRef note qualifier => .superRef note qualifier
  | .classLiteral note ty => .classLiteral note ty
  | .paren _ inner => inner.bare
  | .chain note operands ops => .chain note (Expr.bareOfList operands) ops
  | .unary note op operand => .unary note op operand.bare
  | .step note op form operand => .step note op form operand.bare
  | .assign note op target value => .assign note op target.bare value.bare
  | .conditional note condition thenValue elseValue =>
    .conditional note condition.bare thenValue.bare elseValue.bare
  | .instanceOf note operand target => .instanceOf note operand.bare target
  | .cast note target operand => .cast note target operand.bare
  | .index note array position => .index note array.bare position.bare
  | .call note qualifier n method args =>
    .call note (Expr.bareOfOption qualifier) n method (Expr.bareOfList args)
  | .newInstance note c constructor outer args anonymous =>
    .newInstance note c constructor (Expr.bareOfOption outer) (Expr.bareOfList args) anonymous
  | .newArray note dims init => .newArray note (Expr.bareOfList dims) (Expr.bareOfOption init)
  | .braces note elements => .braces note (Expr.bareOfList elements)
  | .lambda note => .lambda note
  | .methodRef note => .methodRef note

/-- Several expressions without parentheses. -/
def Expr.bareOfList : List Expr → List Expr
  | [] => []
  | e :: rest => e.bare :: Expr.bareOfList rest

/-- An expression that may be missing, without parentheses. -/
def Expr.bareOfOption : Option Expr → Option Expr
  | none => none
  | some e => some e.bare

end

/-- A parenthesis has the type of what it encloses, which is neither the name of a type nor a brace
list. -/
def Expr.Encloses : Expr → Prop
  | .paren note inner => note.ty? = inner.ty? ∧ inner.isTypeName = false ∧ inner.isBraces = false
  | _ => True

namespace Expr

theorem bareOfList_eq (exprs : List Expr) : bareOfList exprs = exprs.map bare := by
  induction exprs with
  | nil => rfl
  | cons e rest ih => rw [bareOfList, ih, List.map_cons]

theorem bareOfOption_eq (e : Option Expr) : bareOfOption e = e.map bare := by
  cases e <;> rfl

/-- Copies without parentheses. -/
def Copier.ofBare : Copier where
  copy := bare
  copy_name _ q _ _ := by rw [bare, bareOfOption_eq]; rfl
  copy_chain _ xs _ := by rw [bare, bareOfList_eq]; rfl
  copy_call _ q _ _ args := by rw [bare, bareOfOption_eq, bareOfList_eq]; rfl
  copy_newInstance _ _ _ q args _ := by rw [bare, bareOfOption_eq, bareOfList_eq]; rfl
  copy_newArray _ dims init := by rw [bare, bareOfOption_eq, bareOfList_eq]; rfl
  copy_braces _ xs := by rw [bare, bareOfList_eq]; rfl

/-- What is asked of an expression from outside is the same without parentheses. -/
theorem bare_outside : ∀ e : Expr, e.Every Encloses →
    e.bare.ty? = e.ty? ∧ e.bare.isTypeName = e.isTypeName ∧ e.bare.isBraces = e.isBraces
  | .paren note inner, h => by
      obtain ⟨⟨hty, htype, hbraces⟩, hchildren⟩ := every_iff.1 h
      obtain ⟨ihty, ihtype, ihbraces⟩ := bare_outside inner (hchildren inner (by simp [children]))
      rw [bare, ihty, ihtype, ihbraces]
      exact ⟨hty.symm, htype, hbraces⟩
  | .name _ _ _ decl, _ => by
      rw [bare]
      cases decl <;> exact ⟨rfl, rfl, rfl⟩
  | .literal .., _ | .thisRef .., _ | .superRef .., _ | .classLiteral .., _ | .chain .., _
  | .unary .., _ | .step .., _ | .assign .., _ | .conditional .., _ | .instanceOf .., _
  | .cast .., _ | .index .., _ | .call .., _ | .newInstance .., _ | .newArray .., _ | .braces .., _
  | .lambda _, _ | .methodRef _, _ => by
      rw [bare]
      exact ⟨rfl, rfl, rfl⟩

variable {e : Expr}

theorem ty?_bare (h : e.Every Encloses) : e.bare.ty? = e.ty? := (bare_outside e h).1

theorem isTypeName_bare (h : e.Every Encloses) : e.bare.isTypeName = e.isTypeName :=
  (bare_outside e h).2.1

theorem isBraces_bare (h : e.Every Encloses) : e.bare.isBraces = e.isBraces :=
  (bare_outside e h).2.2

end Expr

/-- Refusals are compared by their causes. -/
def Leeway.ofCause : Leeway := ⟨fun f g => f.cause = g.cause, fun _ => False, fun _ => False⟩

/-- The same result, or refusals for the same cause. -/
theorem Corresponds.cases_ofCause {α : Type} {R : α → α → Prop} {x y : Except Fault α}
    (h : Corresponds .ofCause R x y) (hR : ∀ a b, R a b → a = b) :
    (∃ a, x = .ok a ∧ y = .ok a) ∨
      ∃ f g, x = .error f ∧ y = .error g ∧ g.cause = f.cause := by
  cases x with
  | ok a =>
      cases y with
      | ok b => exact .inl ⟨a, rfl, congrArg Except.ok (hR a b h).symm⟩
      | error g => exact h.elim
  | error f =>
      cases y with
      | ok b => exact h.elim
      | error g =>
          rcases h with hcause | hfalse | hfalse
          · exact .inr ⟨f, g, rfl, rfl, Eq.symm hcause⟩
          · exact hfalse.elim
          · exact hfalse.elim

namespace View

variable {v : View}

/-- Only a brace list stands for the elements of an array. -/
theorem lower_initializer (ty : Ty) {e : Expr} (h : e.isBraces = false) :
    v.lower (.initializer ty) e = e.excerpt.refuse (.unsupportedConstruct .arrayInitializer) := by
  cases e with
  | braces note elements => cases h
  | name note qualifier n decl => cases qualifier <;> (rw [lower]; rfl)
  | chain note operands ops => cases operands <;> (rw [lower]; rfl)
  | assign note op target value => cases op <;> (rw [lower]; rfl)
  | call note qualifier n method args => cases method <;> (rw [lower]; rfl)
  | newArray note dims init =>
      cases init with
      | some init =>
          rw [lower]
          rfl
      | none => cases dims <;> (rw [lower]; rfl)
  | superRef note qualifier =>
      rw [lower]
      · rfl
      · simp
  | _ =>
      rw [lower]
      rfl

/-- An expression can be compiled without its parentheses, up to the excerpt that is blamed. -/
theorem copies_bare (v : View) :
    v.Copies v .ofCause (Tree.SameBut fun _ _ => False) .ofBare Expr.Encloses where
  aligned := ⟨rfl, rfl⟩
  places _ _ htu := .inl (htu.isLvalue.resolve_left id)
  note _ := ⟨rfl, fun _ _ => rfl⟩
  resembles _ he := ⟨⟨(Expr.ty?_bare he).symm, fun _ _ => rfl⟩, (Expr.isTypeName_bare he).symm,
    (Expr.isBraces_bare he).symm⟩
  start _ _ _ _ _ := fun _ _ => rfl
  literal _ := .refl _
  simpleName _ _ _ _ := .refl (fun _ => rfl) .refl _
  qualifiedName _ e _ _ _ onType _ _ :=
    (Comparable.refl v fun _ => rfl).qualifiedName onType (q := some e) fun _ _ => trivial
  paren note inner he hfollows role := by
    obtain ⟨⟨-, -, hbraces⟩, hchildren⟩ := Expr.every_iff.1 he
    have hinner := hchildren inner (by simp [Expr.children])
    rw [show Expr.Copier.ofBare.copy (.paren note inner) = inner.bare from rfl]
    cases role with
    | initializer ty =>
        rw [lower, lower_initializer ty ((Expr.isBraces_bare hinner).trans hbraces)]
        exact .inl rfl
    | _ =>
        rw [lower]
        · exact hfollows _
        · simp

end View

theorem Source.compile_bare (source : Source) (site : Site)
    (h : ∀ e ∈ source.exprs, e.Every Expr.Encloses) :
    Corresponds .ofCause (Tree.SameBut fun _ _ => False) (source.compile site)
      ((source.mapExprs Expr.bare).compile site) :=
  source.compile_corresponds (fun _ => rfl) (fun _ => View.copies_bare _) h

/-- Parentheses never change what is compiled, if each has the type of what it encloses and none
encloses the name of a type or a brace list. The source without any parentheses compiles if and only
if the source does, and to the same tree; if they are refused, then for the same cause. -/
theorem parentheses_keep_outcome (site : Site) (source : Source)
    (h : ∀ e ∈ source.exprs, e.Every Expr.Encloses) :
    (∀ t, source.compile site = .ok t ↔ (source.mapExprs Expr.bare).compile site = .ok t) ∧
    ∀ fault, source.compile site = .error fault →
      ∃ fault', (source.mapExprs Expr.bare).compile site = .error fault' ∧
        fault'.cause = fault.cause := by
  rcases (source.compile_bare site h).cases_ofCause fun _ _ => Tree.SameBut.eq with
    ⟨t, ht, hbare⟩ | ⟨f, g, hf, hg, hcause⟩
  · rw [ht, hbare]
    exact ⟨fun _ => Iff.rfl, fun _ herror => by cases herror⟩
  · rw [hf, hg]
    refine ⟨fun t => ⟨fun hok => (by cases hok), fun hok => (by cases hok)⟩, fun fault hfault => ?_⟩
    cases hfault
    exact ⟨g, rfl, hcause⟩

/-- A local of the suspended method. -/
def Expr.x : Expr :=
  .name { ty? := some .int } none "x"
    (.localVar { name := "x", ty := .int, origin := .method ⟨1⟩ })

/-- An expression in parentheses that carry its type. -/
def Expr.inParens (e : Expr) : Expr := .paren { ty? := e.ty? } e

theorem Expr.encloses_inParens {e : Expr} (h : e.Every Encloses) (htype : e.isTypeName = false)
    (hbraces : e.isBraces = false) : e.inParens.Every Encloses :=
  every_iff.2 ⟨⟨rfl, htype, hbraces⟩, by simpa [inParens, children] using h⟩

/-- A store to the local in two pairs of parentheses, of its negation in parentheses. -/
def Stmt.negateX : Stmt :=
  .expr {} (.assign { ty? := some .int } .plain Expr.x.inParens.inParens
    (Expr.unary { ty? := some .int } .minus Expr.x.inParens).inParens)

/-- The negated local is stored to itself, with the parentheses as without them. -/
theorem parentheses_keep_outcome_negateX :
    let site : Site := ⟨.empty, ⟨[⟨1⟩], .onInstance⟩, {}⟩
    let source : Source := .fragment [.negateX]
    let tree : Tree := .fragment [.assign (.localVar "x" .frame)
      (.unary .minus (.localVar "x" .frame) .int) false]
    (∀ e ∈ source.exprs, e.Every Expr.Encloses) ∧ source.compile site = .ok tree ∧
      (source.mapExprs Expr.bare).compile site = .ok tree := by
  intro site source tree
  have hencloses : ∀ e ∈ source.exprs, e.Every Expr.Encloses := by
    intro e he
    cases List.mem_singleton.1 he
    have hx : Expr.x.Every Expr.Encloses :=
      Expr.every_iff.2 ⟨trivial, by simp [Expr.x, Expr.children]⟩
    have hinner := Expr.encloses_inParens hx rfl rfl
    have hminus : (Expr.unary { ty? := some .int } .minus Expr.x.inParens).Every Expr.Encloses :=
      Expr.every_iff.2 ⟨trivial, by simpa [Expr.children] using hinner⟩
    refine Expr.every_iff.2 ⟨trivial, ?_⟩
    simpa [Expr.children] using
      ⟨Expr.encloses_inParens hinner rfl rfl, Expr.encloses_inParens hminus rfl rfl⟩
  exact ⟨hencloses, rfl, ((parentheses_keep_outcome site source hencloses).1 tree).1 rfl⟩

end Breakpoint
