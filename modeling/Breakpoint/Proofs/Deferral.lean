import Breakpoint.Proofs.Replacement
import Breakpoint.Proofs.Statement

/-!
Unresolved names. A site leaves them to run time or refuses them, and that is all that the choice
decides: unless the strict site refuses such a name, both sites come to the same outcome. What the
strict site compiles is resolved throughout, but for the lengths of arrays, which are always looked
up on the array.
-/

namespace Breakpoint

/-- The site, where unresolved names are left to run time or refused. -/
def Site.deferring (site : Site) (defer : Bool) : Site :=
  { site with options := { site.options with deferUnresolvedNames := defer } }

/-- The refusal of an unresolved name. -/
def Fault.Unresolved (fault : Fault) : Prop := ∃ name, fault.cause = .unresolvedSymbol name

/-- No local is looked up among the unresolved names. -/
theorem Site.deferring_namesAgree (site : Site) (visible : String → Bool) :
    (View.mk (site.deferring false) visible).NamesAgree Fault.Unresolved
      (View.mk (site.deferring true) visible) where
  locals _ _ := .refl _
  unresolved := .inr ⟨rfl, fun name _ => ⟨name, rfl⟩⟩

theorem Source.compile_agree (source : Source) (site : Site) :
    AgreeUnless Fault.Unresolved (source.compile (site.deferring false))
      (source.compile (site.deferring true)) :=
  (source.compile_corresponds_of_comparable (fun _ => rfl) (fun _ _ _ _ _ _ => trivial)
    fun visible => (site.deferring_namesAgree visible).comparable).agree fun _ _ => Tree.SameBut.eq

/-- The node is not left to run time, unless it is the length of an array that is written in front
of a name in `exprs`. -/
def Site.Resolves (site : Site) (exprs : List Expr) : Tree → Prop
  | .localVar _ .deferred => False
  | .field object name .any => name = "length" ∧ ∃ e ∈ exprs, ∃ note q decl,
      .name note (some q) name decl ∈ e.nodes ∧ q.ty?.any Ty.isArray ∧
        ∃ visible, View.lower ⟨site, visible⟩ .value q = .ok object
  | _ => True

/-- What a node of an expression brings into a tree is resolved, if unresolved names are refused. -/
theorem View.Makes.resolves {v : View} {n e : Expr} {exprs : List Expr} {t : Tree}
    (h : v.Makes n t) (hstrict : v.options.deferUnresolvedNames = false) (he : e ∈ exprs)
    (hn : n ∈ e.nodes) : v.toSite.Resolves exprs t := by
  cases t with
  | localVar name slot =>
      cases slot with
      | deferred => exact absurd h (by simp [View.Makes, hstrict])
      | _ => trivial
  | field object name filter =>
      cases filter with
      | declaredBy c => trivial
      | any =>
          rcases h with hdefer | ⟨note, q, decl, rfl, hlength, hlower⟩
          · simp [hstrict] at hdefer
          · rw [isLength, Bool.and_eq_true, beq_iff_eq] at hlength
            exact ⟨hlength.1, e, he, note, q, decl, hn, hlength.2, v.visible, hlower⟩
  | _ => trivial

theorem Tree.OfStatement.resolves {t : Tree} (site : Site) (exprs : List Expr)
    (h : t.OfStatement fun _ => True) : site.Resolves exprs t := by
  cases t with
  | localVar name slot =>
      cases slot with
      | deferred => cases h
      | _ => trivial
  | field object name filter => cases h
  | _ => trivial

theorem Site.admitted_resolves {site : Site} (hstrict : site.options.deferUnresolvedNames = false)
    (exprs : List Expr) : site.Admitted (site.Resolves exprs) (fun _ => True) exprs := by
  intro e he v hv
  subst hv
  refine View.admitted_of_covers fun n hn => ⟨fun _ _ => trivial, fun _ ht => ?_⟩
  exact ht.resolves hstrict he hn

theorem Source.compile_every {site : Site} {p : Tree → Prop} (source : Source)
    (hp : ∀ t : Tree, t.OfStatement (fun _ => True) → p t)
    (h : site.Admitted p (fun _ => True) source.exprs) :
    Yields (Tree.Every p) (source.compile site) := by
  cases source with
  | expr e => exact (h e List.mem_cons_self _ rfl).value
  | stmt s => exact (lowerStmt_every hp .single s h).outcome rfl
  | fragment stmts => exact (lowerFragment_every hp stmts h).outcome rfl

/-- Refusing unresolved names only takes answers away: the outcome is the same as with names left to
run time, or it is the refusal of an unresolved name. A tree that is compiled that way has no local
that is looked up by name, and the only fields that are looked up on an object are the lengths of
what stands in the source in front of that name with an array type. -/
theorem strict_refuses_only_unresolved (site : Site) (source : Source) :
    (source.compile (site.deferring false) = source.compile (site.deferring true) ∨
      ∃ fault, source.compile (site.deferring false) = .error fault ∧
        ∃ name, fault.cause = .unresolvedSymbol name) ∧
    ∀ t, source.compile (site.deferring false) = .ok t →
      (∀ name, .localVar name .deferred ∉ t.nodes) ∧
      ∀ object name, .field object name .any ∈ t.nodes → name = "length" ∧
        ∃ e ∈ source.exprs, ∃ note q decl, .name note (some q) name decl ∈ e.nodes ∧
          q.ty?.any Ty.isArray ∧
            ∃ visible, View.lower ⟨site.deferring false, visible⟩ .value q = .ok object := by
  refine ⟨source.compile_agree site, fun t ht => ?_⟩
  have hresolved : t.Every ((site.deferring false).Resolves source.exprs) :=
    (source.compile_every (fun _ => Tree.OfStatement.resolves _ _)
      (Site.admitted_resolves rfl source.exprs)).of_ok ht
  exact ⟨fun name hmem => hresolved _ hmem, fun object name hmem => hresolved _ hmem⟩

/-- The length of an array of the suspended method; the name behind the array was not resolved. -/
def Expr.argsLength : Expr :=
  .name {} (some (.name { ty? := some (.array (.prim .int) 1) } none "args"
    (.localVar { name := "args", ty := .array (.prim .int) 1, origin := .method ⟨1⟩ })))
    "length" .unresolved

/-- A name that was not resolved. -/
def Expr.later : Expr := .name {} none "later" .unresolved

/-- The length is compiled without being resolved, and nothing else is left to run time; the plain
name is refused at the strict site only. -/
theorem strict_refuses_only_unresolved_argsLength :
    let site : Site := ⟨.empty, ⟨[⟨1⟩], .onInstance⟩, {}⟩
    let source : Source := .stmt (.expr {} .argsLength)
    let refused : Source := .fragment [.expr {} .argsLength, .expr {} .later]
    source.compile (site.deferring false) =
        .ok (.field (.localVar "args" .frame) "length" .any) ∧
      (∃ e ∈ source.exprs, ∃ note q decl, .name note (some q) "length" decl ∈ e.nodes ∧
        q.ty?.any Ty.isArray ∧ ∃ visible, View.lower ⟨site.deferring false, visible⟩ .value q =
          .ok (.localVar "args" .frame)) ∧
      refused.compile (site.deferring false) ≠ refused.compile (site.deferring true) ∧
        ∃ fault, refused.compile (site.deferring false) = .error fault ∧
          ∃ name, fault.cause = .unresolvedSymbol name := by
  intro site source refused
  have hstrict : refused.compile (site.deferring false) =
      .error ⟨.unresolvedSymbol "later", {}⟩ := rfl
  have hlenient : refused.compile (site.deferring true) = .ok (.fragment
      [.field (.localVar "args" .frame) "length" .any, .localVar "later" .deferred]) := rfl
  have hdiffer : refused.compile (site.deferring false) ≠
      refused.compile (site.deferring true) := by
    rw [hstrict, hlenient]
    intro heq
    cases heq
  refine ⟨rfl, ?_, hdiffer, (strict_refuses_only_unresolved site refused).1.resolve_left hdiffer⟩
  exact (((strict_refuses_only_unresolved site source).2 _ rfl).2 _ "length" List.mem_cons_self).2

end Breakpoint
