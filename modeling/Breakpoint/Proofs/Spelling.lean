import Breakpoint.Proofs.Equivariance

/-!
What is only spelling. Compiled side by side, a statement and the same statement in another spelling
enter and leave the same scopes in two spellings. Two things follow for all that can be compiled.
Texts and places reach nothing but the excerpts of refusals; and names of declared locals and labels
are carried through as they are, so that compiling commutes with renaming them.
-/

namespace Breakpoint

section Scopes

variable {r : Respelling} {D : LocalDecl → Excerpt → Prop}

theorem Arena.declare_respelled (a : Arena) (entry : LocalEntry) (text : String) :
    Corresponds (.ofRespelling r D) (fun b b' => b' = b.respell r) (a.declare entry text)
      ((a.respell r).declare (entry.respell r) (r.text text)) := by
  -- No two names are merged, so the frame has the new name if and only if it had the old one.
  have hfind (i : Nat) : (((a.respell r).frames[i]?).bind fun frame =>
      frame.find? (r.name entry.name)).isSome =
      ((a.frames[i]?).bind fun frame => frame.find? entry.name).isSome := by
    simp [respell, Option.bind_map, Frame.find?_respell, Option.isSome_bind]
  unfold declare
  rw [show (a.respell r).current = a.current from rfl]
  cases a.current with
  | none => exact .inl (.plain rfl)
  | some i =>
      dsimp only
      refine .ite _ (.inl (.plain rfl)) ?_
      rw [show (entry.respell r).name = r.name entry.name from rfl, hfind]
      refine .ite _ (.inl (.plain rfl)) ?_
      exact a.add_respell r i entry

namespace Jumps

variable (j : Jumps)

theorem checkBreak_respelled (label : Option String) (excerpt : Excerpt) :
    Corresponds (.ofRespelling r D) (fun _ _ => True) (j.checkBreak label excerpt)
      ((j.respell r).checkBreak (label.map r.label) (excerpt.respell r)) := by
  cases label with
  | none =>
      rw [Option.map_none, checkBreak, checkBreak, j.inLoop_respell]
      exact .ite _ trivial (.inl (.plain rfl))
  | some label =>
      rw [Option.map_some, checkBreak, checkBreak, j.find?_respell]
      cases j.find? label with
      | some target => exact trivial
      | none => exact .inl (.plain rfl)

theorem checkContinue_respelled (label : Option String) (excerpt : Excerpt) :
    Corresponds (.ofRespelling r D) (fun _ _ => True) (j.checkContinue label excerpt)
      ((j.respell r).checkContinue (label.map r.label) (excerpt.respell r)) := by
  cases label with
  | none =>
      rw [Option.map_none, checkContinue, checkContinue, j.inLoop_respell]
      exact .ite _ trivial (.inl (.plain rfl))
  | some label =>
      rw [Option.map_some, checkContinue, checkContinue, j.find?_respell]
      cases j.find? label with
      | some target => exact .ite _ trivial (.inl (.plain rfl))
      | none => exact .inl (.plain rfl)

end Jumps

end Scopes

/-- The second context is the first in another spelling. -/
def Context.Respells (r : Respelling) (c d : Context) : Prop := c.respell r = d

/-- The second variable is the first in another spelling. -/
def LocalInit.Respells (r : Respelling) (a b : LocalInit) : Prop := a.respell r = b

section Statements

variable {r : Respelling} {D : LocalDecl → Excerpt → Prop}

/-- Statements put labels and names into trees as they are spelled. -/
theorem Tree.stmtCongruence_respells (r : Respelling) :
    StmtCongruence r.label (Respells r) (LocalInit.Respells r) where
  pin h := congrArg Tree.pin h
  block h := by rw [Respells, respell_block, forall₂_respells h]
  fragment h := by rw [Respells, respell_fragment, forall₂_respells h]
  declare h := by
    rw [Respells, respell_declare]
    exact congrArg Tree.declare (List.forall₂_eq_eq_eq ▸ List.forall₂_map_left_iff.2 h)
  ifElse _ _ _ _ _ _ _ hcondition hthen helse := by
    rw [Respells, respell_ifElse, rel_respells helse, hcondition, hthen]
  whileLoop _ _ _ _ _ hcondition hbody := congrArg₂ (Tree.whileLoop _) hcondition hbody
  doLoop _ _ _ _ _ hbody hcondition := congrArg₂ (Tree.doLoop _) hbody hcondition
  forLoop _ _ _ _ _ _ _ _ _ hinit hcondition hupdate hbody := by
    rw [Respells, respell_forLoop, forall₂_respells hinit, rel_respells hcondition,
      forall₂_respells hupdate, hbody]
  breakTo _ := rfl
  continueTo _ := rfl
  returnValue h := by rw [Respells, respell_returnValue, rel_respells h]
  throwValue h := congrArg Tree.throwValue h

/-- An expression in another spelling matches the expression. -/
theorem Expr.Refers.matches {e : Expr} (he : e.Refers D) :
    e.Matches (.ofRespelling r D) (Context.Respells r) (Tree.Respells r) (e.respell r) := by
  have hview (c : Context) := View.copies_respell (D := D) (v := c.view)
    fun name => c.arena.visible_respell r name
  refine ⟨?_, ?_, ?_⟩
  · rintro c _ rfl
    exact (hview c).follows e he .value
  · rintro c _ rfl
    exact (hview c).lowerCondition he
  · rintro c _ rfl ty
    exact (hview c).lowerInitial ty he

theorem lowerVar_respelled (excerpt : Excerpt) (var : Declarator)
    (hinit : ∀ e ∈ var.init,
      e.Matches (.ofRespelling r D) (Context.Respells r) (Tree.Respells r) (e.respell r)) :
    Lowering.Lockstep (.ofRespelling r D) (Context.Respells r) (LocalInit.Respells r)
      (lowerVar excerpt var) (lowerVar (excerpt.respell r) (var.respell r)) := by
  -- The variable is blamed in both spellings, or the statement is in both.
  have hspan : (var.respell r).span.orElse (excerpt.respell r).span =
      r.span (var.span.orElse excerpt.span) := (r.span_orElse _ _).symm
  unfold lowerVar
  dsimp only
  rw [hspan]
  refine (Lowering.lockstep_declare ?_).bind fun _ _ _ => ?_
  · rintro c _ rfl
    refine (c.arena.declare_respelled ⟨_, _, _⟩ excerpt.text).mono ?_
    rintro a _ rfl
    exact rfl
  · refine Lowering.Lockstep.bind (R := Option.Rel (Tree.Respells r))
      (Lowering.lockstep_ofView fun c d hcd => ?_) fun init init' hvalue => ?_
    · obtain ⟨decl, init, span⟩ := var
      cases init with
      | none => exact .none
      | some e =>
          refine ((hinit e rfl).initial c d hcd decl.ty).bind fun _ _ hvalue => ?_
          exact .some (congrArg (Tree.assign _ · false) hvalue)
    · refine Lowering.lockstep_pure ?_
      rw [LocalInit.Respells, LocalInit.respell_mk_zero, Tree.rel_respells hvalue]
      rfl

/-- A statement in another spelling compiles to the tree in that spelling. -/
theorem Context.Respells.copies : Stmt.Copies (.ofRespelling r D) (Respells r) (Tree.Respells r)
    (LocalInit.Respells r) (.ofRespelling r) where
  trees := Tree.stmtCongruence_respells r
  blames := Leeway.blames_respell
  mislabeled _ _ := .plain rfl
  enterFrame c _ h := h ▸ (c.enterFrame_respell r).symm
  enterRoot c _ h := h ▸ (c.enterRoot_respell r).symm
  leaveFrame c _ h := h ▸ (c.leaveFrame_respell r).symm
  enterLoop _ _ _ h := h ▸ rfl
  enterLabeled _ _ _ h := h ▸ rfl
  leaveTarget c _ h := h ▸ (c.leaveTarget_respell r).symm
  checkBreak l x c _ h := h ▸ c.jumps.checkBreak_respelled l x
  checkContinue l x c _ h := h ▸ c.jumps.checkContinue_respelled l x
  declares := lowerVar_respelled

end Statements

/-- Some name in the source has that excerpt and refers to the local. -/
def Source.Refers (source : Source) (d : LocalDecl) (excerpt : Excerpt) : Prop :=
  ∃ e ∈ source.exprs, ∃ n ∈ e.nodes, n.local? = some d ∧ n.excerpt = excerpt

/-- A source in another spelling compiles to the tree in that spelling, or is refused with the fault
in that spelling. -/
theorem Source.compile_respelled (r : Respelling) (source : Source) (site : Site) :
    Corresponds (.ofRespelling r source.Refers) (Tree.Respells r) (source.compile site)
      ((source.respell r).compile site) := by
  have hrefers : ∀ e ∈ source.exprs, e.Refers source.Refers :=
    fun e he n hn d hd => ⟨e, he, n, hn, hd, rfl⟩
  rw [source.respell_eq]
  exact compile_copied Context.Respells.copies (Context.start_respell r site) source
    fun e he => (hrefers e he).matches

section Outcomes

variable {r : Respelling} {site : Site}

theorem Source.compile_respell_of_ok (source : Source) {t : Tree}
    (h : source.compile site = .ok t) :
    (source.respell r).compile site = .ok (t.respell r) := by
  have hrespelled := source.compile_respelled r site
  rw [h] at hrespelled
  cases hcompile : (source.respell r).compile site with
  | ok u =>
      rw [hcompile] at hrespelled
      exact congrArg Except.ok hrespelled.symm
  | error fault =>
      rw [hcompile] at hrespelled
      exact hrespelled.elim

theorem Source.compile_respell_of_error (source : Source) {fault : Fault}
    (h : source.compile site = .error fault) :
    ∃ fault', (source.respell r).compile site = .error fault' ∧
      fault.Respelled r source.Refers fault' := by
  have hrespelled := source.compile_respelled r site
  rw [h] at hrespelled
  cases hcompile : (source.respell r).compile site with
  | ok u =>
      rw [hcompile] at hrespelled
      exact hrespelled.elim
  | error fault' =>
      rw [hcompile] at hrespelled
      rcases hrespelled with halike | hfalse | hfalse
      · exact ⟨fault', rfl, halike⟩
      · exact hfalse.elim
      · exact hfalse.elim

end Outcomes

/-! ### Texts and places -/

/-- No text and no place. -/
def Respelling.unplaced : Respelling where
  text _ := ""
  span _ := {}
  span_orElse _ _ := rfl
  span_through _ _ := rfl

/-- The source without texts and places. -/
def Source.unplaced (source : Source) : Source := source.respell .unplaced

theorem map_label_unplaced (label : Option String) :
    label.map Respelling.unplaced.label = label := by
  cases label <;> rfl

mutual

/-- There are no texts or places in a tree. -/
theorem Tree.respell_unplaced : ∀ t : Tree, t.respell .unplaced = t
  | .literal .. | .thisAt _ | .superAt _ | .typeRef _ | .classObject _ => rfl
  | .localVar _ slot => by cases slot <;> rfl
  | .breakTo label | .continueTo label => by rw [respell, map_label_unplaced]
  | .field t _ _ | .unary _ t _ | .instanceOf t _ | .cast t _ | .box t _ | .unbox t _ | .pin t
  | .throwValue t => by rw [respell, respell_unplaced t]
  | .element t u | .assign t u _ | .binary _ t u _ => by
      rw [respell, respell_unplaced t, respell_unplaced u]
  | .conditional condition t u => by
      rw [respell, respell_unplaced condition, respell_unplaced t, respell_unplaced u]
  | .call object _ args => by
      rw [respell, respell_unplaced object, respellOfList_unplaced args]
  | .newInstance _ _ trees | .block trees | .fragment trees => by
      rw [respell, respellOfList_unplaced trees]
  | .newArray _ dimension elements => by
      rw [respell, respellOfOption_unplaced dimension, respellOfListOption_unplaced elements]
  | .declare locals => by rw [respell, respellOfLocals_unplaced locals]
  | .ifElse label condition t u => by
      rw [respell, map_label_unplaced, respell_unplaced condition, respell_unplaced t,
        respellOfOption_unplaced u]
  | .whileLoop label t u | .doLoop label t u => by
      rw [respell, map_label_unplaced, respell_unplaced t, respell_unplaced u]
  | .forLoop label init condition update body => by
      rw [respell, map_label_unplaced, respellOfList_unplaced init,
        respellOfOption_unplaced condition, respellOfList_unplaced update, respell_unplaced body]
  | .returnValue value => by rw [respell, respellOfOption_unplaced value]

theorem Tree.respellOfList_unplaced : ∀ trees : List Tree, respellOfList .unplaced trees = trees
  | [] => rfl
  | t :: rest => by rw [respellOfList, respell_unplaced t, respellOfList_unplaced rest]

theorem Tree.respellOfOption_unplaced : ∀ t : Option Tree, respellOfOption .unplaced t = t
  | none => rfl
  | some t => by rw [respellOfOption, respell_unplaced t]

theorem Tree.respellOfListOption_unplaced : ∀ trees : Option (List Tree),
    respellOfListOption .unplaced trees = trees
  | none => rfl
  | some trees => by rw [respellOfListOption, respellOfList_unplaced trees]

theorem Tree.respellOfLocal_unplaced : ∀ entry : LocalInit, entry.respell .unplaced = entry
  | .mk n ty zero init => by
      rw [LocalInit.respell, respell_unplaced zero, respellOfOption_unplaced init]
      rfl

theorem Tree.respellOfLocals_unplaced : ∀ locals : List LocalInit,
    LocalInit.respellOfList .unplaced locals = locals
  | [] => rfl
  | entry :: rest => by
      rw [LocalInit.respellOfList, respellOfLocal_unplaced entry, respellOfLocals_unplaced rest]

end

theorem Fault.Respelled.cause_eq {D : LocalDecl → Excerpt → Prop} {fault fault' : Fault}
    (h : fault.Respelled .unplaced D fault') : fault'.cause = fault.cause := by
  cases h with
  | @plain cause excerpt hcause => cases cause <;> rfl
  | @hidden d excerpt hd =>
      have hname : (d.respell .unplaced).name = d.name := by
        cases horigin : d.origin with
        | fragment => exact d.name_respell_of_fragment _ horigin
        | method declaring => exact d.name_respell_of_method _ horigin
      exact congrArg Cause.localNotAccessible hname

/-- A source without texts and places compiles as the source does. -/
theorem Source.compile_unplaced (source : Source) (site : Site) :
    (source.unplaced.compile site).mapError Fault.cause =
      (source.compile site).mapError Fault.cause := by
  cases hcompile : source.compile site with
  | ok t => rw [unplaced, source.compile_respell_of_ok hcompile, t.respell_unplaced]
  | error fault =>
      obtain ⟨fault', hfault', hrel⟩ := source.compile_respell_of_error (r := .unplaced) hcompile
      rw [unplaced, hfault', Except.mapError, Except.mapError, hrel.cause_eq]

/-- Texts and places never influence what is compiled. Two sources that are the same but for texts
and places both compile, and to the same tree, or both are refused, for the same cause. -/
theorem excerpts_reach_only_faults (site : Site) (a b : Source) (h : a.unplaced = b.unplaced) :
    (a.compile site).mapError Fault.cause = (b.compile site).mapError Fault.cause := by
  rw [← a.compile_unplaced, h, b.compile_unplaced]

/-- A declaration of an integer local, with the places of the statement and of the variable. -/
def Stmt.declareInt (name : String) (value : Option Expr) (excerpt : Excerpt) (span : Span) :
    Stmt :=
  .decl excerpt [⟨{ name, ty := .int, span }, value, span⟩]

/-- A local is declared twice. With places the second variable is blamed, without them the second
statement; the cause is the same. -/
theorem excerpts_reach_only_faults_redeclared :
    let site : Site := ⟨.empty, .detached, {}⟩
    let placed : Source := .fragment [.declareInt "i" none ⟨"int i;", 1, 1, 6⟩ ⟨1, 5, 1⟩,
      .declareInt "i" none ⟨"int i;", 1, 8, 6⟩ ⟨1, 12, 1⟩]
    let bare : Source := .fragment [.declareInt "i" none {} {}, .declareInt "i" none {} {}]
    placed.unplaced = bare.unplaced ∧
      placed.compile site = .error ⟨.variableRedeclaration "i", "int i;", 1, 12, 1⟩ ∧
      (bare.compile site).mapError Fault.cause = .error (.variableRedeclaration "i") := by
  intro site placed bare
  have hsame : placed.unplaced = bare.unplaced := rfl
  exact ⟨hsame, rfl, (excerpts_reach_only_faults site placed bare hsame).symm⟩

/-- Other names for declared locals and other labels; texts and places stay as they are. -/
def Respelling.renaming (f g : String ↪ String) : Respelling where
  name := f
  label := g

/-- Compilation commutes with renaming declared locals and labels. If the source compiles, then the
renamed source compiles to the renamed tree; if it is refused, then the renamed source is refused at
the same excerpt for the renamed cause. -/
theorem renaming_commutes (site : Site) (f g : String ↪ String) (source : Source) :
    (∀ t, source.compile site = .ok t →
      (source.respell (.renaming f g)).compile site = .ok (t.respell (.renaming f g))) ∧
    ∀ fault, source.compile site = .error fault →
      ∃ fault', (source.respell (.renaming f g)).compile site = .error fault' ∧
        fault.Respelled (.renaming f g) source.Refers fault' :=
  ⟨fun _ => source.compile_respell_of_ok, fun _ => source.compile_respell_of_error⟩

/-- A name with a mark behind it. -/
def marked : String ↪ String where
  toFun name := name ++ "_"
  inj' a b h := by simpa using h

/-- A labelled loop with a local that hides another of its name, and a jump out of the loop. -/
def Source.hidingLoop : Source :=
  let i : Expr := .name { ty? := some .int } none "i" (.localVar { name := "i", ty := .int })
  let forever : Expr := .literal { ty? := some .boolean } (.bool true)
  .fragment [.declareInt "i" (some (.literal { ty? := some .int } (.int 1))) {} {},
    .labeled {} "outer" (.whileLoop {} forever
      (.block {} [.declareInt "i" (some i) {} {}, .breakTo {} (some "outer")]))]

/-- With marked names and labels, both locals and the label of the jump are marked alike. -/
theorem renaming_commutes_hidingLoop :
    let site : Site := ⟨.empty, .detached, {}⟩
    let tree (i outer : String) : Tree :=
      let declared (value : Tree) : Tree := .declare [.mk i .int (.literal (.int 0) .int)
        (some (.assign (.localVar i .fragment) value false))]
      .fragment [declared (.literal (.int 1) .int),
        .whileLoop (some outer) (.literal (.bool true) .boolean)
          (.block [.pin (declared (.localVar i .fragment)), .pin (.breakTo (some outer))])]
    Source.hidingLoop.compile site = .ok (tree "i" "outer") ∧
      (Source.hidingLoop.respell (.renaming marked marked)).compile site =
        .ok (tree (marked "i") (marked "outer")) := by
  intro site tree
  have hcompile : Source.hidingLoop.compile site = .ok (tree "i" "outer") := by
    with_unfolding_all rfl
  exact ⟨hcompile, (renaming_commutes site marked marked .hidingLoop).1 _ hcompile⟩

end Breakpoint
