import Breakpoint.Access
import Breakpoint.Proofs.Inheritance

/-!
The way to an enclosing instance. From the current instance one goes outwards along the classes of
the position, past classes that do not match the target and whose instances keep an enclosing
instance, to the first class that does match. The number of steps is the least possible one, and
without such a class there is no way.
-/

namespace Breakpoint

/-- A class matches a target: it is the target or inherits from it, or the target is the root class.
-/
def Hierarchy.Matches (h : Hierarchy) (c target : ClassId) : Prop :=
  h.Inherits c target ∨ target = ClassId.object

/-- The class that is reached from `c` by the given number of outer links. -/
def Hierarchy.outwards (h : Hierarchy) : Nat → ClassId → Option ClassId
  | 0, c => some c
  | n + 1, c => (h.outer? c).bind (h.outwards n)

/-- The instance `depth` steps outwards is the nearest one of `target`: there is a current instance,
the class at that index is the first to match, and every class before it is known and keeps an
enclosing instance. -/
structure Site.Nearest (s : Site) (target : ClassId) (depth : Nat) : Prop where
  hasThis : s.position.hasThis
  found : ∃ c, s.position.classes[depth]? = some c ∧ s.hierarchy.Matches c target
  passed : ∀ i < depth, ∃ c info, s.position.classes[i]? = some c ∧
    ¬s.hierarchy.Matches c target ∧ s.hierarchy.get? c = some info ∧ info.nesting.hasOuterInstance

namespace Hierarchy

variable {h : Hierarchy} {target : ClassId}

theorem nameOf_eq (id : ClassId) : h.nameOf id = (h.get? id).elim id.render ClassInfo.name := by
  unfold nameOf
  cases h.get? id <;> rfl

theorem hasOuterInstance_iff {c : ClassId} :
    h.hasOuterInstance c ↔ ∃ info, h.get? c = some info ∧ info.nesting.hasOuterInstance := by
  rw [hasOuterInstance, Option.any_eq_true]

/-- The way outwards stops at the first class that matches, and goes on only past classes that keep
an enclosing instance. -/
theorem hops?_eq_some_iff {classes : List ClassId} {depth : Nat} :
    h.hops? target classes = some depth ↔
      (∃ c, classes[depth]? = some c ∧ h.Matches c target) ∧
        ∀ i < depth, ∃ c, classes[i]? = some c ∧ ¬h.Matches c target ∧ h.hasOuterInstance c := by
  induction classes generalizing depth with
  | nil => simp [hops?]
  | cons c rest ih =>
      unfold hops?
      split_ifs with hmatch houter
      · replace hmatch : h.Matches c target := isSubclass_iff.1 hmatch
        constructor
        · rintro ⟨⟩
          exact ⟨⟨c, rfl, hmatch⟩, by simp⟩
        · rintro ⟨-, hpassed⟩
          cases depth with
          | zero => rfl
          | succ depth =>
              obtain ⟨c', hc', hnot, -⟩ := hpassed 0 (Nat.zero_lt_succ depth)
              cases hc'
              exact absurd hmatch hnot
      · replace hmatch : ¬h.Matches c target := fun hm => hmatch (isSubclass_iff.2 hm)
        cases depth with
        | zero => simp [hmatch]
        | succ depth =>
            simp only [Option.map_eq_some_iff, Nat.add_right_cancel_iff, exists_eq_right, ih,
              List.getElem?_cons_succ]
            refine and_congr_right fun _ => ⟨fun hpassed i hi => ?_, fun hpassed i hi => ?_⟩
            · cases i with
              | zero => exact ⟨c, rfl, hmatch, houter⟩
              | succ i => exact hpassed i (Nat.lt_of_succ_lt_succ hi)
            · exact hpassed (i + 1) (Nat.succ_lt_succ hi)
      · replace hmatch : ¬h.Matches c target := fun hm => hmatch (isSubclass_iff.2 hm)
        refine iff_of_false (by simp) ?_
        rintro ⟨⟨c', hc', hfound⟩, hpassed⟩
        cases depth with
        | zero =>
            cases hc'
            exact hmatch hfound
        | succ depth =>
            obtain ⟨c', hc', -, hkeeps⟩ := hpassed 0 (Nat.zero_lt_succ depth)
            cases hc'
            exact houter hkeeps

theorem outwardFrom_of_fresh {seen : List ClassId} {id : ClassId} (hfresh : id ∉ seen) :
    h.outwardFrom seen id =
      id :: ((h.outer? id).map (h.outwardFrom (id :: seen))).getD [] := by
  rw [outwardFrom, if_neg hfresh]
  split
  next hnone => rw [hnone, Option.map_none, Option.getD_none]
  next outer houter => rw [houter, Option.map_some, Option.getD_some]

/-- Index and number of links agree along the classes around a class. -/
theorem outwards_of_outwardFrom {seen : List ClassId} {id c : ClassId} {depth : Nat}
    (hdepth : (h.outwardFrom seen id)[depth]? = some c) : h.outwards depth id = some c := by
  fun_induction h.outwardFrom seen id generalizing depth with
  | case1 seen id hseen => simp at hdepth
  | case2 seen id hfresh ih =>
      cases depth with
      | zero => exact hdepth
      | succ depth =>
          rw [List.getElem?_cons_succ] at hdepth
          split at hdepth
          · simp at hdepth
          next outer houter =>
            rw [outwards, houter]
            exact ih outer houter hdepth

end Hierarchy

namespace Site

variable {s : Site} {target : ClassId} {excerpt : Excerpt}

theorem nearest_iff (hthis : s.position.hasThis) {depth : Nat} :
    s.Nearest target depth ↔ s.hierarchy.hops? target s.position.classes = some depth := by
  rw [Hierarchy.hops?_eq_some_iff]
  constructor
  · intro hnearest
    refine ⟨hnearest.found, fun i hi => ?_⟩
    obtain ⟨c, info, hc, hnot, hinfo⟩ := hnearest.passed i hi
    exact ⟨c, hc, hnot, Hierarchy.hasOuterInstance_iff.2 ⟨info, hinfo⟩⟩
  · rintro ⟨hfound, hpassed⟩
    refine ⟨hthis, hfound, fun i hi => ?_⟩
    obtain ⟨c, hc, hnot, houter⟩ := hpassed i hi
    obtain ⟨info, hinfo⟩ := Hierarchy.hasOuterInstance_iff.1 houter
    exact ⟨c, info, hc, hnot, hinfo⟩

theorem hopDepth_eq_ok_iff {depth : Nat} :
    s.hopDepth target excerpt = .ok depth ↔ s.Nearest target depth := by
  unfold hopDepth
  split
  next hthis =>
    rw [nearest_iff hthis]
    cases s.hierarchy.hops? target s.position.classes with
    | some d => simp
    | none => simp [Excerpt.refuse]
  next hthis => exact iff_of_false (by simp [Excerpt.refuse]) fun hnearest => hthis hnearest.hasThis

theorem hopDepth_of_static (hthis : ¬s.position.hasThis) :
    s.hopDepth target excerpt = .error ⟨.thisNotAvailable, excerpt⟩ := by
  rw [hopDepth, if_neg hthis, Excerpt.refuse]

theorem hopDepth_of_none (hthis : s.position.hasThis) (hnone : ¬∃ depth, s.Nearest target depth) :
    s.hopDepth target excerpt = .error ⟨.noEnclosingInstance
      ((s.hierarchy.get? target).elim target.render ClassInfo.name), excerpt⟩ := by
  have hhops : s.hierarchy.hops? target s.position.classes = none := by
    rw [Option.eq_none_iff_forall_ne_some]
    exact fun depth hdepth => hnone ⟨depth, (nearest_iff hthis).2 hdepth⟩
  rw [hopDepth, if_pos hthis, hhops, ← Hierarchy.nameOf_eq]
  rfl

end Site

/-- The number of steps to an instance of `target` is the least possible one. A depth is found if
and only if it is that of the nearest instance; it is refused that there is no current instance if
and only if there is none, and that there is no enclosing instance of `target` in every other case,
which gives the name of `target`, or its code if the class is not known. At a position that was
built from the outer links of a class, as many of these links lead to the class that is found. -/
theorem hop_depth_minimal (s : Site) (target : ClassId) (excerpt : Excerpt) :
    (∀ depth, s.hopDepth target excerpt = .ok depth ↔ s.Nearest target depth) ∧
    (s.hopDepth target excerpt = .error ⟨.thisNotAvailable, excerpt⟩ ↔ ¬s.position.hasThis) ∧
    (∀ name, s.hopDepth target excerpt = .error ⟨.noEnclosingInstance name, excerpt⟩ ↔
      (s.position.hasThis ∧ ¬∃ depth, s.Nearest target depth) ∧
        name = (s.hierarchy.get? target).elim target.render ClassInfo.name) ∧
    ∀ c depth, s.position = .within s.hierarchy c .onInstance →
      s.hopDepth target excerpt = .ok depth →
      ∃ found, s.position.classes[depth]? = some found ∧
        s.hierarchy.outwards depth c = some found := by
  have hok {depth : Nat} : s.hopDepth target excerpt = .ok depth ↔ s.Nearest target depth :=
    Site.hopDepth_eq_ok_iff
  refine ⟨fun depth => hok, ⟨fun herror hthis => ?_, Site.hopDepth_of_static⟩,
    fun name => ⟨fun herror => ?_, ?_⟩, ?_⟩
  · by_cases hfound : ∃ depth, s.Nearest target depth
    · obtain ⟨depth, hdepth⟩ := hfound
      cases herror.symm.trans (hok.2 hdepth)
    · cases herror.symm.trans (Site.hopDepth_of_none hthis hfound)
  · have hthis : s.position.hasThis := by
      by_contra hthis
      cases herror.symm.trans (Site.hopDepth_of_static hthis)
    have hnone : ¬∃ depth, s.Nearest target depth := by
      rintro ⟨depth, hdepth⟩
      cases herror.symm.trans (hok.2 hdepth)
    cases herror.symm.trans (Site.hopDepth_of_none hthis hnone)
    exact ⟨⟨hthis, hnone⟩, rfl⟩
  · rintro ⟨⟨hthis, hnone⟩, rfl⟩
    exact Site.hopDepth_of_none hthis hnone
  · intro c depth hposition hdepth
    obtain ⟨found, hfound, -⟩ := (hok.1 hdepth).found
    have hchain : (s.hierarchy.outwardFrom [] c)[depth]? = some found := by
      rw [hposition] at hfound
      exact hfound
    exact ⟨found, hfound, Hierarchy.outwards_of_outwardFrom hchain⟩

/-- A position in an inner class, whose outer class inherits from a class that is not known; a
fourth class stands elsewhere. -/
def Site.inherited : Site :=
  let hierarchy := ((Hierarchy.empty.insert
    { id := ⟨4⟩, name := "Elsewhere", superclass := none }).insert
    { id := ⟨2⟩, name := "Outer", superclass := some ⟨3⟩ }).insert
    { id := ⟨1⟩, name := "Inner", superclass := none, outer := some ⟨2⟩, nesting := .inner }
  { hierarchy, position := .within hierarchy ⟨1⟩ .onInstance }

theorem Site.inherited_classes : Site.inherited.position.classes = [⟨1⟩, ⟨2⟩] := by
  change Site.inherited.hierarchy.outwardFrom [] ⟨1⟩ = _
  have hinner : Site.inherited.hierarchy.outer? ⟨1⟩ = some ⟨2⟩ := rfl
  have houter : Site.inherited.hierarchy.outer? ⟨2⟩ = none := rfl
  rw [Hierarchy.outwardFrom_of_fresh (by simp), hinner, Option.map_some,
    Hierarchy.outwardFrom_of_fresh (by simp), houter]
  rfl

theorem Site.inherited_extends {sub sup : ClassId}
    (hlink : Site.inherited.hierarchy.Extends sub sup) : sub = ⟨2⟩ ∧ sup = ⟨3⟩ := by
  obtain ⟨info, hinfo, hsup⟩ := hlink
  simp only [inherited, Hierarchy.get?_insert, Hierarchy.get?_empty] at hinfo
  split_ifs at hinfo with h1 h2 h4
  · cases hinfo
    simp at hsup
  · cases hinfo
    simp only [Option.some.injEq, List.not_mem_nil, or_false] at hsup
    exact ⟨h2.symm, hsup.symm⟩
  · cases hinfo
    simp at hsup

/-- The only link leads from the outer class to its superclass. -/
theorem Site.inherited_inherits {sub sup : ClassId}
    (hpath : Site.inherited.hierarchy.Inherits sub sup) :
    sub = sup ∨ sub = ⟨2⟩ ∧ sup = ⟨3⟩ := by
  obtain heq | ⟨next, hlink, hrest⟩ := hpath.cases_head
  · exact .inl heq
  · obtain ⟨rfl, rfl⟩ := inherited_extends hlink
    obtain heq | ⟨next, hlink, -⟩ := hrest.cases_head
    · exact .inr ⟨rfl, heq.symm⟩
    · cases (inherited_extends hlink).1

/-- The outer instance is one step away, and it is the nearest one of the superclass. There is none
of the class elsewhere, which is named, and none of a class that is not known, which has no name. -/
theorem hop_depth_minimal_inherited :
    Site.inherited.Nearest ⟨3⟩ 1 ∧ Site.inherited.hopDepth ⟨3⟩ {} = .ok 1 ∧
      (∃ found, Site.inherited.position.classes[1]? = some found ∧
        Site.inherited.hierarchy.outwards 1 ⟨1⟩ = some found) ∧
      Site.inherited.hopDepth ⟨4⟩ {} = .error ⟨.noEnclosingInstance "Elsewhere", {}⟩ ∧
      Site.inherited.hopDepth ⟨9⟩ {} =
        .error ⟨.noEnclosingInstance "0x0000000000000009", {}⟩ := by
  have hthis : Site.inherited.position.hasThis := by
    rw [Position.hasThis, Site.inherited_classes]
    rfl
  have hnearest : Site.inherited.Nearest ⟨3⟩ 1 := by
    refine ⟨hthis, ⟨⟨2⟩, by rw [Site.inherited_classes]; rfl, ?_⟩, fun i hi => ?_⟩
    · exact .inl (.single ⟨_, rfl, .inl rfl⟩)
    · obtain rfl : i = 0 := by omega
      refine ⟨⟨1⟩, _, by rw [Site.inherited_classes]; rfl, ?_, rfl, rfl⟩
      rintro (hpath | hobject)
      · exact absurd (Site.inherited_inherits hpath) (by decide)
      · exact absurd hobject (by decide)
  have hnone {target : ClassId} (hout : target ∉ [⟨1⟩, ⟨2⟩, ⟨3⟩, ClassId.object]) :
      ¬∃ depth, Site.inherited.Nearest target depth := by
    rintro ⟨depth, hnearest⟩
    obtain ⟨c, hc, hpath | rfl⟩ := hnearest.found
    · have hmem := List.mem_of_getElem? hc
      rw [Site.inherited_classes] at hmem
      rcases Site.inherited_inherits hpath with rfl | ⟨-, rfl⟩
      · simp_all
      · simp at hout
    · simp at hout
  have hminimal := hop_depth_minimal .inherited ⟨3⟩ {}
  have hdepth := (hminimal.1 1).2 hnearest
  refine ⟨hnearest, hdepth, hminimal.2.2.2 ⟨1⟩ 1 rfl hdepth, ?_, ?_⟩
  · exact ((hop_depth_minimal .inherited ⟨4⟩ {}).2.2.1 _).2 ⟨⟨hthis, hnone (by decide)⟩, rfl⟩
  · exact ((hop_depth_minimal .inherited ⟨9⟩ {}).2.2.1 _).2 ⟨⟨hthis, hnone (by decide)⟩, rfl⟩

end Breakpoint
