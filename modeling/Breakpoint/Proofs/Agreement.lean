import Breakpoint.Proofs.Copies

/-!
Expressions in two views of one position. The views may differ in their options and in the locals
that are visible; both play a part only where a local or an unresolved name is looked up. So if the
views come to corresponding outcomes there, they come to corresponding outcomes for every
expression: to trees that are the same but for the places of such names, or to the same refusal,
unless one of the views refuses for a reason of its own. If nothing is changed at such places, the
trees are the same.
-/

namespace Breakpoint

/-- Every expression is a copy of itself. -/
def Expr.Copier.same : Copier where
  copy e := e
  copy_name _ q _ _ := by rw [Option.map_id']; rfl
  copy_chain _ xs _ := by rw [List.map_id']; rfl
  copy_call _ q _ _ args := by rw [Option.map_id', List.map_id']; rfl
  copy_newInstance _ _ _ q args _ := by rw [Option.map_id', List.map_id']; rfl
  copy_newArray _ dims init := by rw [Option.map_id', List.map_id']; rfl
  copy_braces _ xs := by rw [List.map_id']; rfl

namespace View

/-- The same position, under other options and with other visible locals. -/
def under (v : View) (options : Options) (visible : String → Bool) : View :=
  ⟨⟨v.hierarchy, v.position, options⟩, visible⟩

/-- The views come to corresponding outcomes for the locals in `D` and for unresolved names. What is
changed in the first view is no place there, and is refused as one. -/
structure Comparable (L : Leeway) (p : Tree → Tree → Prop) (D : LocalDecl → Prop)
    (v w : View) : Prop where
  same : ∀ fault, L.alike fault fault
  locals : ∀ d, D d → ∀ excerpt,
    Corresponds L (Tree.SameBut p) (v.localAccess d excerpt) (w.localAccess d excerpt)
  unresolved : v.options.deferUnresolvedNames = w.options.deferUnresolvedNames ∨
    v.options.deferUnresolvedNames = false ∧
      ∀ name excerpt, L.first ⟨.unresolvedSymbol name, excerpt⟩
  places : ∀ t u, p t u → t.isLvalue = false ∧ ∀ excerpt, L.first ⟨.notAnLvalue, excerpt⟩

namespace Comparable

variable {L : Leeway} {p : Tree → Tree → Prop} {D : LocalDecl → Prop} {v : View}
  {options : Options} {visible : String → Bool}

theorem refl (v : View) (h : ∀ fault, L.alike fault fault) :
    v.Comparable L (fun _ _ => False) (fun _ => True) v where
  same := h
  locals _ _ _ := .refl h .refl _
  unresolved := .inl rfl
  places _ _ hchanged := hchanged.elim

theorem deferred (h : v.Comparable L p D (v.under options visible)) (name : String)
    (excerpt : Excerpt) {x y : Except Fault Tree} (hxy : Corresponds L (Tree.SameBut p) x y) :
    Corresponds L (Tree.SameBut p)
      (if v.options.deferUnresolvedNames then x else excerpt.refuse (.unresolvedSymbol name))
      (if options.deferUnresolvedNames then y else excerpt.refuse (.unresolvedSymbol name)) := by
  rcases h.unresolved with heq | ⟨hnone, hF⟩
  · have heq : v.options.deferUnresolvedNames = options.deferUnresolvedNames := heq
    rw [heq]
    split
    · exact hxy
    · exact .inl (h.same _)
  · rw [hnone]
    exact .refused (hF name excerpt)

theorem simpleName (h : v.Comparable L p D (v.under options visible)) {note : Note}
    {q : Option Expr} {name : String} {decl : Decl}
    (hlocal : ∀ d ∈ (Expr.name note q name decl).local?, D d) :
    Corresponds L (Tree.SameBut p) (v.simpleName note name decl)
      ((v.under options visible).simpleName note name decl) := by
  cases decl with
  | localVar d => exact h.locals d (hlocal d rfl) note.excerpt
  | unresolved => exact h.deferred name note.excerpt (.refl h.same .refl _)
  | field | method | type => exact .refl h.same .refl _

theorem qualifiedName (h : v.Comparable L p D (v.under options visible)) {note : Note}
    {q : Option Expr} {name : String} {decl : Decl} (onType : Bool) {x y : Except Fault Tree}
    (hlocal : ∀ d ∈ (Expr.name note q name decl).local?, D d)
    (hxy : Corresponds L (Tree.SameBut p) x y) :
    Corresponds L (Tree.SameBut p) (v.qualifiedName note name onType x decl)
      ((v.under options visible).qualifiedName note name onType y decl) := by
  cases decl with
  | field d =>
      have haligned : v.Aligned (v.under options visible).toSite := ⟨rfl, rfl⟩
      unfold View.qualifiedName
      dsimp only
      split
      · exact .refl h.same .refl _
      · refine hxy.bind fun a b hab => ?_
        exact haligned.fieldAccess d (fun _ _ => h.same _) (.some hab)
  | unresolved => exact h.deferred name note.excerpt (hxy.bind fun _ _ => .field)
  | localVar | method | type => exact h.simpleName hlocal

/-- Comparable views come to corresponding outcomes for one and the same expression. -/
theorem copies (h : v.Comparable L p D (v.under options visible)) :
    v.Copies (v.under options visible) L (Tree.SameBut p) .same fun n => ∀ d ∈ n.local?, D d where
  aligned := ⟨rfl, rfl⟩
  places t u htu := htu.isLvalue.symm.imp_right (h.places t u)
  note _ := ⟨rfl, fun _ _ => h.same _⟩
  resembles _ _ := ⟨⟨rfl, fun _ _ => h.same _⟩, rfl, rfl⟩
  start _ _ _ _ _ := fun _ _ => h.same _
  literal _ := .refl _
  simpleName _ _ _ hlocal := h.simpleName hlocal
  qualifiedName _ _ _ _ hlocal onType _ _ := h.qualifiedName onType hlocal
  paren _ _ _ := .paren rfl fun _ _ => h.same _

end Comparable

end View

variable {α β : Type} {F : Fault → Prop}

/-- The outcomes are the same, unless the first one is a refusal that satisfies `F`. -/
def AgreeUnless (F : Fault → Prop) (x y : Except Fault α) : Prop :=
  x = y ∨ ∃ fault, x = .error fault ∧ F fault

/-- Only the first side may refuse alone, and only for reasons that satisfy `F`. -/
def Leeway.ofFirst (F : Fault → Prop) : Leeway := ⟨Eq, F, fun _ => False⟩

/-- Outcomes that correspond agree, if related results are equal. -/
theorem Corresponds.agree {R : α → α → Prop} {x y : Except Fault α}
    (h : Corresponds (.ofFirst F) R x y) (hR : ∀ a b, R a b → a = b) : AgreeUnless F x y := by
  cases x with
  | ok a =>
      cases y with
      | ok b => exact .inl (congrArg Except.ok (hR a b h))
      | error g => exact h.elim
  | error f =>
      cases y with
      | ok b => exact .inr ⟨f, rfl, h⟩
      | error g =>
          rcases h with heq | hf | hg
          · exact .inl (congrArg Except.error heq)
          · exact .inr ⟨f, rfl, hf⟩
          · exact hg.elim

namespace AgreeUnless

variable {x y : Except Fault α}

theorem refl (x : Except Fault α) : AgreeUnless F x x := .inl rfl

theorem refused {fault : Fault} (h : F fault) : AgreeUnless F (.error fault) y :=
  .inr ⟨fault, rfl, h⟩

theorem of_ok (h : AgreeUnless F x y) {a : α} (hx : x = .ok a) : y = .ok a := by
  rcases h with rfl | ⟨fault, herror, -⟩
  · exact hx
  · cases herror.symm.trans hx

theorem corresponds {R : α → α → Prop} (h : AgreeUnless F x y) (hR : ∀ a, R a a) :
    Corresponds (.ofFirst F) R x y := by
  rcases h with rfl | ⟨fault, rfl, hfault⟩
  · exact .refl (fun _ => rfl) hR x
  · exact .refused hfault

end AgreeUnless

namespace View

/-- What one view finds for a local or an unresolved name, the other finds too, unless the first
refuses it for a reason that satisfies `F`. -/
structure NamesAgree (F : Fault → Prop) (v w : View) : Prop where
  locals : ∀ d excerpt, AgreeUnless F (v.localAccess d excerpt) (w.localAccess d excerpt)
  unresolved : v.options.deferUnresolvedNames = w.options.deferUnresolvedNames ∨
    v.options.deferUnresolvedNames = false ∧ ∀ name excerpt, F ⟨.unresolvedSymbol name, excerpt⟩

variable {v : View} {options : Options} {visible : String → Bool}

/-- Views that agree on names are comparable, with nothing changed. -/
theorem NamesAgree.comparable {w : View} (h : v.NamesAgree F w) :
    v.Comparable (.ofFirst F) (fun _ _ => False) (fun _ => True) w where
  same _ := rfl
  locals d _ excerpt := (h.locals d excerpt).corresponds .refl
  unresolved := h.unresolved
  places _ _ hchanged := hchanged.elim

/-- Views that agree on names agree on expressions. -/
theorem lower_agree (h : v.NamesAgree F (v.under options visible)) (role : Role) (e : Expr) :
    AgreeUnless F (v.lower role e) ((v.under options visible).lower role e) :=
  (h.comparable.copies.follows e (fun _ _ _ _ => trivial) role).agree fun _ _ => Tree.SameBut.eq

theorem lowerCondition_agree (h : v.NamesAgree F (v.under options visible)) (e : Expr) :
    AgreeUnless F (v.lowerCondition e) ((v.under options visible).lowerCondition e) :=
  (h.comparable.copies.lowerCondition fun _ _ _ _ => trivial).agree fun _ _ => Tree.SameBut.eq

theorem lowerInit_agree (h : v.NamesAgree F (v.under options visible)) (name : String) (ty : Ty)
    (init : Option Expr) :
    AgreeUnless F (v.lowerInit name ty init)
      ((v.under options visible).lowerInit name ty init) := by
  cases init with
  | none => exact .refl _
  | some e =>
      have hinitial := h.comparable.copies.lowerInitial ty (e := e) fun _ _ _ _ => trivial
      refine (hinitial.bind fun a b hab => ?_).agree (R := Eq) fun _ _ => id
      rw [hab.eq]
      exact rfl

end View

end Breakpoint
