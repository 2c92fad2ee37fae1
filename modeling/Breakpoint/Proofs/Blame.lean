import Breakpoint.Proofs.Lockstep
import Breakpoint.Proofs.Outside

/-!
Whom a refusal blames. A fault quotes the source: its excerpt is the one of an expression or of a
statement. Two kinds of fault need more than one node. A declaration is quoted as a whole, but the
place may be that of one of its variables; and operands that do not fit are quoted from the start of
their chain up to the operand that did not fit what stands to the left of it.
-/

namespace Breakpoint

/-- The causes for which a declaration statement is blamed. -/
def Cause.ofDeclaration : Cause → Bool
  | declarationOutsideFragment | variableRedeclaration _ => true
  | _ => false

/-- The refusals that a statement can bring about by itself. -/
inductive Stmt.Raises : Stmt → Fault → Prop where
  | node (s : Stmt) {cause : Cause} (hcause : cause.ofStmt) : Raises s ⟨cause, s.excerpt⟩
  | declaration {excerpt : Excerpt} {vars : List Declarator} {cause : Cause} {span : Span}
      (hcause : cause.ofDeclaration)
      (hspan : span = excerpt.span ∨ ∃ var ∈ vars, ¬var.span.isEmpty ∧ span = var.span) :
      Raises (.decl excerpt vars) ⟨cause, excerpt.text, span⟩

theorem Arena.declare_raises (a : Arena) (entry : LocalEntry) (text : String) :
    Meets (fun fault => ∃ cause : Cause, cause.ofDeclaration ∧ fault = ⟨cause, text, entry.span⟩)
      (fun _ => True) (a.declare entry text) := by
  unfold declare
  split
  · exact ⟨_, rfl, rfl⟩
  · split
    · exact ⟨_, rfl, rfl⟩
    · split
      · exact ⟨_, rfl, rfl⟩
      · trivial

theorem Jumps.checkBreak_raises (j : Jumps) (label : Option String) (excerpt : Excerpt) :
    Meets (fun fault => ∃ cause : Cause, cause.ofStmt ∧ fault = ⟨cause, excerpt⟩) (fun _ => True)
      (j.checkBreak label excerpt) := by
  unfold checkBreak
  split
  · split
    · trivial
    · exact ⟨_, rfl, rfl⟩
  · split
    · trivial
    · exact ⟨_, rfl, rfl⟩

theorem Jumps.checkContinue_raises (j : Jumps) (label : Option String) (excerpt : Excerpt) :
    Meets (fun fault => ∃ cause : Cause, cause.ofStmt ∧ fault = ⟨cause, excerpt⟩) (fun _ => True)
      (j.checkContinue label excerpt) := by
  unfold checkContinue
  split
  · split
    · trivial
    · exact ⟨_, rfl, rfl⟩
  · split
    · split
      · trivial
      · exact ⟨_, rfl, rfl⟩
    · exact ⟨_, rfl, rfl⟩

/-! ### Refusals of statements -/

namespace Lowering

variable {α β : Type} {F : Fault → Prop} {body : Lowering α}

/-- From whatever context it starts, the compilation is refused only with faults that satisfy `F`.
-/
def Blames (F : Fault → Prop) (body : Lowering α) : Prop :=
  ∀ c : Context, Meets c (fun fault _ => F fault) (fun _ _ => True) body

theorem blames_pure (a : α) : Blames F (pure a) := fun _ => meets_pure trivial

theorem blames_refuse {excerpt : Excerpt} {cause : Cause} (h : F ⟨cause, excerpt⟩) :
    Blames F (refuse excerpt cause : Lowering α) :=
  fun _ => meets_refuse h

theorem Blames.bind {P : α → Prop} {k : α → Lowering β} (h : Blames F body)
    (hresults : body.Results P) (hk : ∀ a, P a → Blames F (k a)) : Blames F (body >>= k) := by
  intro c
  have hboth : Meets c (fun fault _ => F fault) (fun a _ => True ∧ P a) body :=
    Breakpoint.Meets.and (h c) (hresults c)
  exact hboth.bind fun a c' ha => hk a ha.2 c'

theorem blames_ofView {outcome : View → Except Fault α}
    (h : ∀ v : View, Breakpoint.Meets F (fun _ => True) (outcome v)) : Blames F (ofView outcome) :=
  fun c => meets_ofView (h c.view)

theorem Blames.bracket {enter leave : Context → Context} (h : Blames F body) :
    Blames F (bracket enter leave body) :=
  fun c => meets_bracket (h (enter c))

theorem Blames.inLabeled (label : Option String) (h : Blames F body) :
    Blames F (inLabeled label body) := by
  cases label with
  | none => exact h
  | some label => exact h.bracket

theorem blames_jump {check : Jumps → Except Fault Unit}
    (h : ∀ j, Breakpoint.Meets F (fun _ => True) (check j)) : Blames F (jump check) :=
  fun c => meets_jump (h c.jumps)

theorem blames_declare {entry : LocalEntry} {text : String}
    (h : ∀ cause : Cause, cause.ofDeclaration → F ⟨cause, text, entry.span⟩) :
    Blames F (declare entry text) := by
  refine fun c => meets_declare ((c.arena.declare_raises entry text).mono ?_ fun _ => id)
  rintro _ ⟨cause, hcause, rfl⟩
  exact h cause hcause

/-- Refusals that satisfy `F`, in lists as anywhere else. -/
def Discipline.blaming (F : Fault → Prop) : Discipline where
  Holds := Blames F
  HoldsInList := Blames F
  pure := blames_pure
  bind := Blames.bind
  inList := id
  bindInList := Blames.bind
  inFrame := Blames.bracket
  inLoop _ := Blames.bracket
  inLabeled := Blames.inLabeled

end Lowering

open Lowering

section Statements

variable {F : Fault → Prop}

/-- A variable is refused at its own place or at that of the declaration. -/
theorem lowerVar_blames {excerpt : Excerpt} {var : Declarator}
    (hdeclare : ∀ cause : Cause, cause.ofDeclaration →
      F ⟨cause, excerpt.text, var.span.orElse excerpt.span⟩)
    (hinit : ∀ e ∈ var.init, ∀ (v : View) fault, v.Blames e fault → F fault) :
    Blames F (lowerVar excerpt var) := by
  refine (blames_declare hdeclare).bind (results_any _) fun _ _ => ?_
  refine (blames_ofView fun v => ?_).bind (results_any _) fun _ _ => blames_pure _
  cases hvar : var.init with
  | none => trivial
  | some e =>
      have he := hinit e hvar v
      refine Meets.bind ((v.lowerInitial_blames var.decl.ty e).mono he fun _ => id) ?_
      exact fun _ _ => trivial

theorem orElse_eq (span span' : Span) :
    span.orElse span' = span' ∨ ¬span.isEmpty ∧ span.orElse span' = span := by
  unfold Span.orElse
  split
  · exact .inl rfl
  next hempty => exact .inr ⟨hempty, rfl⟩

/-- A statement is refused for what one of its expressions or of the statements in it brings about.
-/
theorem parts_blaming (F : Fault → Prop) : Stmt.Spec.any.Parts (Discipline.blaming F).logic
    (fun e => ∀ (v : View) fault, v.Blames e fault → F fault)
    fun s => ∀ fault, s.Raises fault → F fault where
  value e he := by
    refine ⟨blames_ofView fun v => ?_, results_any _⟩
    exact (v.lower_blames .value e).mono (he v) fun _ _ => trivial
  condition e he := by
    refine ⟨blames_ofView fun v => ?_, results_any _⟩
    exact (v.lowerCondition_blames e).mono (he v) fun _ _ => trivial
  entry excerpt vars hs var hvar hinit := by
    refine ⟨lowerVar_blames (fun cause hcause => hs _ (.declaration hcause ?_)) hinit,
      results_any _⟩
    exact (orElse_eq var.span excerpt.span).imp_right fun h => ⟨var, hvar, h⟩
  refuse s cause hs hcause P :=
    ⟨blames_refuse (hs _ (.node s hcause)), results_refuse _ _⟩
  stray excerpt vars hs P :=
    ⟨blames_refuse (hs _ (.declaration rfl (.inl rfl))), results_refuse _ _⟩
  checkBreak excerpt label hs := by
    refine ⟨blames_jump fun j => (j.checkBreak_raises label excerpt).mono ?_ fun _ => id,
      results_any _⟩
    rintro _ ⟨cause, hcause, rfl⟩
    exact hs _ (.node (.breakTo excerpt label) hcause)
  checkContinue excerpt label hs := by
    refine ⟨blames_jump fun j => (j.checkContinue_raises label excerpt).mono ?_ fun _ => id,
      results_any _⟩
    rintro _ ⟨cause, hcause, rfl⟩
    exact hs _ (.node (.continueTo excerpt label) hcause)

end Statements

/-- The column right behind a span. -/
def Span.after (s : Span) : Nat := s.col.toNat + s.len.toNat

/-- The span starts where `start` does. If `x` starts on the same line and not further left, it ends
where the later of the two ends, as long as columns fit in a word. -/
structure Span.Reaches (start x s : Span) : Prop where
  line : s.line = start.line
  col : s.col = start.col
  after : x.line = start.line → start.col ≤ x.col → x.after < UInt32.size →
    start.after < UInt32.size → s.after = max x.after start.after

theorem Span.through_reaches (start x : Span) : start.Reaches x (start.through x) := by
  unfold through
  split
  next hout =>
    refine ⟨rfl, rfl, fun hline hcol _ _ => ?_⟩
    rcases hout with hout | hout
    · exact absurd hline hout
    · exact absurd hcol (UInt32.not_le.2 hout)
  next hin =>
    refine ⟨rfl, rfl, fun _ hcol hx hstart => ?_⟩
    have hmax : (max (x.col + x.len) (start.col + start.len)).toNat = max x.after start.after := by
      unfold after at hx hstart
      rw [UInt32.toNat_max, UInt32.toNat_add, UInt32.toNat_add, Nat.mod_eq_of_lt hx,
        Nat.mod_eq_of_lt hstart]
      rfl
    have hle : start.col.toNat ≤ max x.after start.after :=
      Nat.le_trans (Nat.le_add_right _ _) (Nat.le_max_right _ _)
    have hlen : (max (x.col + x.len) (start.col + start.len) - start.col).toNat =
        max x.after start.after - start.col.toNat := by
      rw [UInt32.toNat_sub_of_le, hmax]
      rw [UInt32.le_iff_toNat_le, hmax]
      exact hle
    change start.col.toNat + (max (x.col + x.len) (start.col + start.len) - start.col).toNat = _
    rw [hlen, Nat.add_sub_cancel' hle]

namespace Source

/-- The statements of what is compiled, at any depth. -/
def stmts : Source → List Stmt
  | expr _ => []
  | stmt s => s.nodes
  | fragment stmts => Stmt.nodesOfList stmts

/-- Some expression or some statement of the source brings the refusal about. -/
def Blames (source : Source) (fault : Fault) : Prop :=
  (∃ e ∈ source.exprs, ∃ v : View, v.Blames e fault) ∨ ∃ s ∈ source.stmts, s.Raises fault

theorem compile_blames (source : Source) (site : Site) :
    Meets source.Blames (fun _ => True) (source.compile site) := by
  have hexprs : ∀ e ∈ source.exprs, ∀ (v : View) fault, v.Blames e fault → source.Blames fault :=
    fun e he v _ hfault => .inl ⟨e, he, v, hfault⟩
  have hstmts : ∀ s ∈ source.stmts, ∀ fault, s.Raises fault → source.Blames fault :=
    fun s hs _ hfault => .inr ⟨s, hs, hfault⟩
  cases source with
  | expr e =>
      refine (View.lower_blames _ .value e).mono (hexprs e List.mem_cons_self _) ?_
      exact fun _ _ => trivial
  | stmt s =>
      have hstmt := (parts_blaming _).lowerStmt Stmt.Spec.closed_any .single s hexprs hstmts
        (by simp [Stmt.Adds])
      exact (hstmt.1 (Context.start site)).outcome
  | fragment stmts =>
      have hitems := (parts_blaming _).lowerItems Stmt.Spec.closed_any stmts hexprs hstmts
      have hfragment := Blames.bind hitems.1 hitems.2 fun items _ =>
        blames_pure (Tree.fragment items)
      exact (hfragment.bracket (Context.start site)).outcome

/-- The fault quotes the source. A declaration is quoted as a whole, at its own place or at that of
one of its variables. Operands that do not fit are quoted by the text of an operand that is not the
first one of its chain, from the start of the first one, or of the chain where the first one has no
place. In all other cases one expression or one statement is quoted, text and place. -/
def Quotes (source : Source) (fault : Fault) : Prop :=
  match fault.cause with
  | .declarationOutsideFragment | .variableRedeclaration _ =>
    ∃ excerpt vars, .decl excerpt vars ∈ source.stmts ∧ fault.excerpt.text = excerpt.text ∧
      (fault.excerpt.span = excerpt.span ∨
        ∃ var ∈ vars, ¬var.span.isEmpty ∧ fault.excerpt.span = var.span)
  | .incompatibleOperands .. =>
    ∃ e ∈ source.exprs, ∃ note first rest ops, .chain note (first :: rest) ops ∈ e.nodes ∧
      ∃ x ∈ rest, fault.excerpt.text = x.excerpt.text ∧
        Span.Reaches (if first.excerpt.span.isEmpty then note.excerpt.span else first.excerpt.span)
          x.excerpt.span fault.excerpt.span
  | _ =>
    (∃ e ∈ source.exprs, ∃ n ∈ e.nodes, fault.excerpt = n.excerpt) ∨
      ∃ s ∈ source.stmts, fault.excerpt = s.excerpt

theorem quotes_of_expr {source : Source} {e n : Expr} (he : e ∈ source.exprs) (hn : n ∈ e.nodes)
    {v : View} {fault : Fault} (h : v.Raises n fault) : source.Quotes fault := by
  cases h with
  | @node _ cause hcause =>
      cases cause with
      | declarationOutsideFragment | variableRedeclaration | incompatibleOperands => cases hcause
      | _ => exact .inl ⟨e, he, n, hn, rfl⟩
  | hidden => exact .inl ⟨e, he, _, hn, rfl⟩
  | operands hx op left right =>
      exact ⟨e, he, _, _, _, _, hn, _, hx, rfl, Span.through_reaches _ _⟩

theorem quotes_of_stmt {source : Source} {s : Stmt} (hs : s ∈ source.stmts) {fault : Fault}
    (h : s.Raises fault) : source.Quotes fault := by
  cases h with
  | @node _ cause hcause =>
      cases cause with
      | declarationOutsideFragment | variableRedeclaration | incompatibleOperands => cases hcause
      | _ => exact .inr ⟨s, hs, rfl⟩
  | @declaration excerpt vars cause span hcause hspan =>
      cases cause with
      | declarationOutsideFragment | variableRedeclaration =>
          exact ⟨excerpt, vars, hs, rfl, hspan⟩
      | _ => cases hcause

end Source

/-- Every refusal quotes the source, at the place where the quoted text stands. -/
theorem faults_quote_source (site : Site) (source : Source) (fault : Fault)
    (h : source.compile site = .error fault) : source.Quotes fault := by
  rcases (source.compile_blames site).of_error h with ⟨e, he, v, n, hn, hraises⟩ | ⟨s, hs, hraises⟩
  · exact Source.quotes_of_expr he hn hraises
  · exact Source.quotes_of_stmt hs hraises

/-- A number and a truth value on one line, joined by an operator that does not apply to them. -/
def Expr.oddSum : Expr :=
  .chain ⟨none, "1 + true", ⟨3, 5, 8⟩⟩ [.literal ⟨some .int, "1", ⟨3, 5, 1⟩⟩ (.int 1),
    .literal ⟨some .boolean, "true", ⟨3, 9, 4⟩⟩ (.bool true)] [.add]

/-- A declaration of one variable twice; only the second one has a place of its own. -/
def Stmt.declareTwice : Stmt :=
  .decl ⟨"int i, i;", ⟨1, 1, 9⟩⟩ [⟨{ name := "i", ty := .int }, none, {}⟩,
    ⟨{ name := "i", ty := .int }, none, ⟨1, 8, 1⟩⟩]

/-- The operands are quoted from the number to the end of the truth value, the declaration as a
whole at the place of the second variable, and a jump without a loop by itself. -/
theorem faults_quote_source_oddSum :
    let site : Site := ⟨.empty, ⟨[⟨1⟩], .onInstance⟩, {}⟩
    let sum : Source := .stmt (.expr ⟨"1 + true;", ⟨3, 5, 9⟩⟩ .oddSum)
    let declaration : Source := .fragment [.declareTwice]
    let jump : Source := .fragment [.block {} [.breakTo ⟨"break;", ⟨2, 3, 6⟩⟩ none]]
    let operands : Fault := ⟨.incompatibleOperands .add "int" "boolean", "true", ⟨3, 5, 8⟩⟩
    let twice : Fault := ⟨.variableRedeclaration "i", "int i, i;", ⟨1, 8, 1⟩⟩
    let stray : Fault := ⟨.breakOutsideLoop, "break;", ⟨2, 3, 6⟩⟩
    (sum.compile site = .error operands ∧ sum.Quotes operands) ∧
      (declaration.compile site = .error twice ∧ declaration.Quotes twice) ∧
      jump.compile site = .error stray ∧ jump.Quotes stray := by
  intro site sum declaration jump operands twice stray
  have hsum : sum.compile site = .error operands := rfl
  have hdeclaration : declaration.compile site = .error twice := rfl
  have hjump : jump.compile site = .error stray := rfl
  exact ⟨⟨hsum, faults_quote_source site sum operands hsum⟩,
    ⟨hdeclaration, faults_quote_source site declaration twice hdeclaration⟩,
    hjump, faults_quote_source site jump stray hjump⟩

end Breakpoint
