import Breakpoint.Proofs.Respelling

/-!
Compilation of expressions commutes with respelling. An expression in another spelling is a copy of
the expression. So the two come to the same tree in two spellings, or to the same refusal in two
spellings. The one refusal that does not show how it is respelled names a local that cannot be
accessed, since that may be a local of a method, which keeps its name.
-/

namespace Breakpoint

/-- A cause with the names and labels in it replaced. -/
def Cause.respell (r : Respelling) : Cause → Cause
  | .variableRedeclaration name => .variableRedeclaration (r.name name)
  | .undefinedLabel label => .undefinedLabel (r.label label)
  | .notALoopLabel label => .notALoopLabel (r.label label)
  | .invalidLabelTarget label => .invalidLabelTarget (r.label label)
  | cause => cause

/-- Whether the cause is a local that cannot be accessed. -/
def Cause.hidesLocal : Cause → Bool
  | .localNotAccessible _ => true
  | _ => false

/-- The second refusal is the first in another spelling. One of a local that cannot be accessed is
about some `d` to which the blamed name refers, as `D` says. -/
inductive Fault.Respelled (r : Respelling) (D : LocalDecl → Excerpt → Prop) :
    Fault → Fault → Prop where
  | plain {cause : Cause} {excerpt : Excerpt} (h : cause.hidesLocal = false) :
      Respelled r D ⟨cause, excerpt⟩ ⟨cause.respell r, excerpt.respell r⟩
  | hidden {d : LocalDecl} {excerpt : Excerpt} (h : D d excerpt) :
      Respelled r D ⟨.localNotAccessible d.name, excerpt⟩
        ⟨.localNotAccessible (d.respell r).name, excerpt.respell r⟩

/-- Refusals have to be the same in two spellings. -/
def Leeway.ofRespelling (r : Respelling) (D : LocalDecl → Excerpt → Prop) : Leeway :=
  ⟨Fault.Respelled r D, fun _ => False, fun _ => False⟩

/-- The second tree is the first in another spelling. -/
def Tree.Respells (r : Respelling) (t u : Tree) : Prop := t.respell r = u

theorem Tree.forall₂_respells {r : Respelling} {xs ys : List Tree}
    (h : List.Forall₂ (Respells r) xs ys) : xs.map (respell r) = ys :=
  List.forall₂_eq_eq_eq ▸ List.forall₂_map_left_iff.2 h

theorem Tree.rel_respells {r : Respelling} {x y : Option Tree} (h : Option.Rel (Respells r) x y) :
    x.map (respell r) = y := by
  cases h with
  | none => rfl
  | some h => exact congrArg some h

/-- What expressions bring into a tree is spelled in one way only. -/
instance Tree.congruence_respells (r : Respelling) : Congruence (Respells r) where
  one := congrArg (Tree.literal · .int) r.constant_one
  thisAt _ := rfl
  superAt _ := rfl
  typeRef _ := rfl
  classObject _ := rfl
  field h := congrArg (Tree.field · _ _) h
  call hobject hargs := by rw [Respells, respell_call, forall₂_respells hargs, hobject]
  newInstance h := by rw [Respells, respell_newInstance, forall₂_respells h]
  newArray hdimension helements := by
    rw [Respells, respell_newArray, rel_respells hdimension]
    cases helements with
    | none => rfl
    | some helements => rw [Option.map_some, forall₂_respells helements]
  element harray hindex := congrArg₂ Tree.element harray hindex
  assign htarget hvalue := congrArg₂ (Tree.assign · · _) htarget hvalue
  binary hleft hright := congrArg₂ (Tree.binary _ · · _) hleft hright
  unary h := congrArg (Tree.unary _ · _) h
  conditional hcondition hthen helse := by
    rw [Respells, respell, hcondition, hthen, helse]
  instanceOf h := congrArg (Tree.instanceOf · _) h
  cast h := congrArg (Tree.cast · _) h
  box h := congrArg (Tree.box · _) h
  unbox h := congrArg (Tree.unbox · _) h

/-- A cause that names no local and no label is spelled in one way only. -/
theorem Leeway.blames_respell {r : Respelling} {D : LocalDecl → Excerpt → Prop}
    (excerpt : Excerpt) :
    (ofRespelling r D).Blames excerpt (excerpt.respell r) := by
  intro cause hplain
  have hrespell : cause.respell r = cause := by
    cases cause with
    | variableRedeclaration | undefinedLabel | notALoopLabel | invalidLabelTarget => cases hplain
    | _ => rfl
  have hhides : cause.hidesLocal = false := by
    cases cause with
    | localNotAccessible => cases hplain
    | _ => rfl
  have halike : Fault.Respelled r D ⟨cause, excerpt⟩ ⟨cause.respell r, excerpt.respell r⟩ :=
    .plain hhides
  rwa [hrespell] at halike

/-- A local of a method keeps its name, and with it the name of the field that keeps it. -/
theorem Site.capturedLocal_respelled {r : Respelling} {D : LocalDecl → Excerpt → Prop} (s : Site)
    {d : LocalDecl} {declaring : ClassId} {excerpt : Excerpt} (hd : D d excerpt)
    (horigin : d.origin = .method declaring) :
    Corresponds (.ofRespelling r D) (Tree.Respells r) (s.capturedLocal d declaring excerpt)
      (s.capturedLocal (d.respell r) declaring (excerpt.respell r)) := by
  have hname := LocalDecl.name_respell_of_method r horigin
  have hinlined : s.inlined? (d.respell r) = (s.inlined? d).map r.constant := by
    unfold inlined?
    split <;> rfl
  unfold capturedLocal
  cases holder? declaring s.position.classes with
  | none => exact .inl (.hidden hd)
  | some found =>
      rw [hinlined, hname]
      cases s.inlined? d with
      | some value => rfl
      | none =>
          have hexcerpt := Leeway.blames_respell (r := r) (D := D) excerpt
          exact .ite _ (.refuse hexcerpt) (.ite _ rfl (.refuse hexcerpt))

/-- Whenever a node of the expression names a local, `D` relates the local to the node's excerpt. -/
def Expr.Refers (D : LocalDecl → Excerpt → Prop) (e : Expr) : Prop :=
  e.Every fun n => ∀ d ∈ n.local?, D d n.excerpt

namespace View

/-- The same position with other locals visible. -/
def seeing (v : View) (visible : String → Bool) : View := { v with visible }

variable {r : Respelling} {D : LocalDecl → Excerpt → Prop} {v : View} {visible : String → Bool}

theorem localAccess_respelled (h : ∀ name, visible (r.name name) = v.visible name)
    {d : LocalDecl} {excerpt : Excerpt} (hd : D d excerpt) :
    Corresponds (.ofRespelling r D) (Tree.Respells r) (v.localAccess d excerpt)
      ((v.seeing visible).localAccess (d.respell r) (excerpt.respell r)) := by
  cases horigin : d.origin with
  | fragment =>
      have hname := LocalDecl.name_respell_of_fragment r horigin
      have hvisible : (v.seeing visible).visible (d.respell r).name = v.visible d.name := by
        rw [hname]
        exact h d.name
      rw [localAccess, localAccess, horigin, show (d.respell r).origin = _ from horigin]
      dsimp only
      rw [hvisible]
      split
      · rw [hname]
        exact rfl
      · exact .inl (.hidden hd)
  | method declaring =>
      have hname := LocalDecl.name_respell_of_method r horigin
      rw [localAccess, localAccess, horigin, show (d.respell r).origin = _ from horigin]
      dsimp only
      refine .ite _ ?_ (v.capturedLocal_respelled hd horigin)
      rw [hname, show (d.respell r).parameter? = d.parameter? from rfl]
      cases d.parameter? <;> exact rfl

theorem simpleName_respelled (h : ∀ name, visible (r.name name) = v.visible name) {note : Note}
    {q : Option Expr} {name : String} {decl : Decl}
    (hlocal : ∀ d ∈ (Expr.name note q name decl).local?, D d note.excerpt) :
    Corresponds (.ofRespelling r D) (Tree.Respells r) (v.simpleName note name decl)
      ((v.seeing visible).simpleName (note.respell r) name (decl.respell r)) := by
  have hnote : (Leeway.ofRespelling r D).Blames note.excerpt (note.respell r).excerpt :=
    Leeway.blames_respell note.excerpt
  have haligned : v.Aligned (v.seeing visible).toSite := ⟨rfl, rfl⟩
  cases decl with
  | localVar d => exact localAccess_respelled h (hlocal d rfl)
  | field d => exact haligned.fieldAccess d hnote .none
  | method m => exact .refuse hnote
  | type ty => exact rfl
  | unresolved => exact .ite _ rfl (.refuse hnote)

theorem qualifiedName_respelled (h : ∀ name, visible (r.name name) = v.visible name)
    {note : Note} {q : Option Expr} {name : String} {decl : Decl} (onType : Bool)
    {x y : Except Fault Tree}
    (hlocal : ∀ d ∈ (Expr.name note q name decl).local?, D d note.excerpt)
    (hxy : Corresponds (.ofRespelling r D) (Tree.Respells r) x y) :
    Corresponds (.ofRespelling r D) (Tree.Respells r) (v.qualifiedName note name onType x decl)
      ((v.seeing visible).qualifiedName (note.respell r) name onType y (decl.respell r)) := by
  have hnote : (Leeway.ofRespelling r D).Blames note.excerpt (note.respell r).excerpt :=
    Leeway.blames_respell note.excerpt
  have haligned : v.Aligned (v.seeing visible).toSite := ⟨rfl, rfl⟩
  cases decl with
  | field d =>
      refine .ite _ (haligned.fieldAccess d hnote .none) (hxy.bind fun _ _ hobject => ?_)
      exact haligned.fieldAccess d hnote (.some hobject)
  | unresolved => exact .ite _ (hxy.bind fun _ _ => Tree.Congruence.field) (.refuse hnote)
  | localVar d => exact simpleName_respelled h hlocal
  | method m => exact simpleName_respelled h hlocal
  | type ty => exact simpleName_respelled h hlocal

/-- An expression in another spelling compiles to the tree in that spelling. -/
theorem copies_respell (h : ∀ name, visible (r.name name) = v.visible name) :
    v.Copies (v.seeing visible) (.ofRespelling r D) (Tree.Respells r) (.ofRespelling r)
      fun n => ∀ d ∈ n.local?, D d n.excerpt where
  aligned := ⟨rfl, rfl⟩
  places t u htu := by
    rw [← htu, t.isLvalue_respell]
    exact .inl rfl
  note note := ⟨rfl, Leeway.blames_respell note.excerpt⟩
  resembles e _ := by
    refine ⟨⟨(e.ty?_respell r).symm, ?_⟩, (e.isTypeName_respell r).symm,
      (e.isBraces_respell r).symm⟩
    have hblames := Leeway.blames_respell (r := r) (D := D) e.excerpt
    rwa [← e.excerpt_respell] at hblames
  start note first e _ _ := by
    -- Both spellings agree on whether the span of the first operand was filled in.
    have hblames := Leeway.blames_respell (r := r) (D := D) ⟨e.excerpt.text,
      (first.excerpt.span.orElse note.excerpt.span).through e.excerpt.span⟩
    rw [Excerpt.respell, r.span_through, r.span_orElse] at hblames
    change Leeway.Blames _ _ ⟨(e.respell r).excerpt.text, ((first.respell r).excerpt.span.orElse
      (note.respell r).excerpt.span).through (e.respell r).excerpt.span⟩
    rw [e.excerpt_respell, first.excerpt_respell]
    exact hblames
  literal value := congrArg (Tree.literal (r.constant value)) (r.constant_ty value).symm
  simpleName _ _ _ hlocal := simpleName_respelled h (q := none) hlocal
  qualifiedName _ e _ _ hlocal onType _ _ := qualifiedName_respelled h onType (q := some e) hlocal
  paren note _ _ := .paren rfl (Leeway.blames_respell note.excerpt)

end View

end Breakpoint
