import Breakpoint.Proofs.Replacement

/-!
Captured constants. A captured local that has a constant value is replaced by that value, or read
from the field that keeps it. The choice changes single nodes and nothing around them: no conversion
and no scope depends on it. The two nodes differ in what can go wrong with them, though. A constant
cannot be stored to, and the field has to be reached.
-/

namespace Breakpoint

/-- The site, where captured constants are replaced by their values or read from fields. -/
def Site.inlining (site : Site) (inline : Bool) : Site :=
  { site with options := { site.options with inlineCapturedConstants := inline } }

@[simp] theorem Site.inlining_hierarchy (site : Site) (inline : Bool) :
    (site.inlining inline).hierarchy = site.hierarchy := rfl

@[simp] theorem Site.inlining_position (site : Site) (inline : Bool) :
    (site.inlining inline).position = site.position := rfl

/-- A constant cannot be stored to, and the field of a captured local may be out of reach. -/
def Leeway.inlining : Leeway where
  alike := Eq
  first fault := fault.cause = .notAnLvalue
  second fault := fault.cause = .thisNotAvailable ∨ ∃ name, fault.cause = .noEnclosingInstance name

/-- The value of a constant local in `D` stands for the field that keeps it. -/
def Inlined (D : LocalDecl → Prop) (t u : Tree) : Prop :=
  ∃ d value depth holder, D d ∧ d.constant? = some value ∧ t = .literal value d.ty ∧
    u = .field (.thisAt depth) ("val$" ++ d.name) (.declaredBy holder)

theorem Site.capturedLocal_inlining (site : Site) {D : LocalDecl → Prop} {d : LocalDecl} (hd : D d)
    (declaring : ClassId) (excerpt : Excerpt) :
    Corresponds .inlining (Tree.SameBut (Inlined D))
      ((site.inlining true).capturedLocal d declaring excerpt)
      ((site.inlining false).capturedLocal d declaring excerpt) := by
  cases hconstant : d.constant? with
  | none =>
      have hsame (inline : Bool) : (site.inlining inline).inlined? d = none := by
        simp [inlined?, hconstant]
      unfold capturedLocal
      rw [hsame, hsame]
      exact .refl (fun _ => rfl) .refl _
  | some value =>
      have hon : (site.inlining true).inlined? d = some value := by
        simp [inlined?, inlining, hconstant]
      have hoff : (site.inlining false).inlined? d = none := by simp [inlined?, inlining]
      unfold capturedLocal
      rw [hon, hoff, inlining_position, inlining_position, inlining_hierarchy, inlining_hierarchy]
      split
      · exact .inl rfl
      next passed holder _ =>
        dsimp only
        split_ifs
        · exact .refused_right (.inl rfl)
        · exact .changed ⟨d, value, passed.length, holder, hd, hconstant, rfl, rfl⟩
        · exact .refused_right (.inr ⟨_, rfl⟩)

theorem Site.inlining_comparable (site : Site) (D : LocalDecl → Prop) (visible : String → Bool) :
    (View.mk (site.inlining true) visible).Comparable .inlining (Inlined D) D
      (View.mk (site.inlining false) visible) where
  same _ := rfl
  locals d hd excerpt := by
    unfold View.localAccess
    cases d.origin with
    | fragment => exact .refl (fun _ => rfl) .refl _
    | method declaring =>
        dsimp only
        rw [inlining_position, inlining_position]
        split_ifs
        · exact .refl (fun _ => rfl) .refl _
        · exact site.capturedLocal_inlining hd declaring excerpt
  unresolved := .inl rfl
  places t u htu := by
    obtain ⟨d, value, depth, holder, -, -, rfl, -⟩ := htu
    exact ⟨rfl, fun _ => rfl⟩

/-- The locals that are named in what is compiled. -/
def Source.Names (source : Source) (d : LocalDecl) : Prop :=
  ∃ e ∈ source.exprs, ∃ n ∈ e.nodes, n.local? = some d

theorem Source.compile_inlining (source : Source) (site : Site) :
    Corresponds .inlining (Tree.SameBut (Inlined source.Names))
      (source.compile (site.inlining true)) (source.compile (site.inlining false)) :=
  source.compile_corresponds_of_comparable (fun _ => rfl)
    (fun e he n hn _ hd => ⟨e, he, n, hn, hd⟩) (site.inlining_comparable source.Names)

/-- Inlining of captured constants is a local rewrite. If both sites compile the source, the trees
are the same, except that in some places the one has the value of a constant local of the source and
the other the field that keeps this local. Only inlining refuses a place to store to, and only
reading the field fails to reach an instance. -/
theorem inlining_rewrites_locally (site : Site) (source : Source) :
    (∀ t u, source.compile (site.inlining true) = .ok t →
      source.compile (site.inlining false) = .ok u → t.SameBut (Inlined source.Names) u) ∧
    (∀ fault u, source.compile (site.inlining true) = .error fault →
      source.compile (site.inlining false) = .ok u → fault.cause = .notAnLvalue) ∧
    (∀ t fault, source.compile (site.inlining true) = .ok t →
      source.compile (site.inlining false) = .error fault →
        fault.cause = .thisNotAvailable ∨ ∃ name, fault.cause = .noEnclosingInstance name) := by
  have h := source.compile_inlining site
  refine ⟨fun t u hon hoff => ?_, fun fault u hon hoff => ?_, fun t fault hon hoff => ?_⟩
  · rw [hon, hoff] at h
    exact h
  · rw [hon, hoff] at h
    exact h
  · rw [hon, hoff] at h
    exact h

/-- A constant of a method around the classes of a position. -/
def LocalDecl.limit : LocalDecl :=
  LocalDecl.withConstant { name := "limit", ty := .int, origin := .method ⟨3⟩ } (.int 5)

/-- The name of that constant. -/
def Expr.limit : Expr := .name { ty? := some .int } none "limit" (.localVar .limit)

/-- Returned from an instance of the inner class, the constant is a value or a field of that
instance. A store to it is refused if it is a value, and in static code there is no instance to read
it from. -/
theorem inlining_rewrites_locally_limit :
    let site : Site := ⟨.empty, ⟨[⟨2⟩, ⟨3⟩], .onInstance⟩, {}⟩
    let static : Site := ⟨.empty, ⟨[⟨2⟩, ⟨3⟩], .static⟩, {}⟩
    let read : Source := .stmt (.returnValue {} (some .limit))
    let store : Source := .expr (.assign {} .plain .limit (.literal { ty? := some .int } (.int 1)))
    let value : Tree := .returnValue (some (.literal (.int 5) .int))
    let field : Tree := .returnValue (some (.field (.thisAt 0) "val$limit" (.declaredBy ⟨2⟩)))
    (read.compile (site.inlining true) = .ok value ∧
      read.compile (site.inlining false) = .ok field ∧
        value.SameBut (Inlined read.Names) field) ∧
    (∃ fault u, store.compile (site.inlining true) = .error fault ∧
      store.compile (site.inlining false) = .ok u ∧ fault.cause = .notAnLvalue) ∧
    ∃ fault, read.compile (static.inlining true) = .ok value ∧
      read.compile (static.inlining false) = .error fault ∧
        (fault.cause = .thisNotAvailable ∨ ∃ name, fault.cause = .noEnclosingInstance name) := by
  intro site static read store value field
  refine ⟨⟨rfl, rfl, ?_⟩, ⟨_, _, rfl, rfl, ?_⟩, _, rfl, rfl, ?_⟩
  · exact (inlining_rewrites_locally site read).1 _ _ rfl rfl
  · exact (inlining_rewrites_locally site store).2.1 _ _ rfl rfl
  · exact (inlining_rewrites_locally static read).2.2 _ _ rfl rfl

end Breakpoint
