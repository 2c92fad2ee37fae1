import Breakpoint.Proofs.Enclosing
import Breakpoint.Proofs.Expression

/-!
Captured locals. A local of a method around the suspended code is kept by the class that stands
directly inside that method, whatever classes stand further inside and whatever they inherit from.
So the way to it is a matter of outer links alone: they lead from the innermost class to the holder,
and one more of them leads to the declaring class for the first time.
-/

namespace Breakpoint

/-- On the way outwards from `c`, the class `holder` stands directly inside `declaring`: `depth`
outer links lead to it, its own outer link leads to `declaring`, and no earlier link does. -/
structure Hierarchy.Holds (h : Hierarchy) (c declaring : ClassId) (depth : Nat)
    (holder : ClassId) : Prop where
  reached : h.outwards depth c = some holder
  inside : h.outer? holder = some declaring
  first : ∀ i, 0 < i → i < depth + 1 → h.outwards i c ≠ some declaring

/-- What comes of a local `d` of a method of `declaring`, for code inside `c`. -/
inductive Site.Captures (s : Site) (c declaring : ClassId) (d : LocalDecl) (excerpt : Excerpt) :
    Except Fault Tree → Prop where
  /-- The method is not around the code. -/
  | hidden (hout : declaring ∉ s.position.classes) :
      Captures s c declaring d excerpt (.error ⟨.localNotAccessible d.name, excerpt⟩)
  /-- The local has a constant that takes its place, on an instance or not. -/
  | constant {value : Constant} (hin : declaring ∈ s.position.classes)
      (hinline : s.options.inlineCapturedConstants = true) (hvalue : d.constant? = some value) :
      Captures s c declaring d excerpt (.ok (.literal value d.ty))
  /-- There is no current instance to start from. -/
  | static (hin : declaring ∈ s.position.classes)
      (hplain : s.options.inlineCapturedConstants = true → d.constant? = none)
      (hstatic : s.position.activation = .static) :
      Captures s c declaring d excerpt (.error ⟨.thisNotAvailable, excerpt⟩)
  /-- A class before the holder keeps no enclosing instance; the holder is named. -/
  | cut {depth : Nat} {holder : ClassId} {info : ClassInfo}
      (hplain : s.options.inlineCapturedConstants = true → d.constant? = none)
      (hthis : s.position.activation = .onInstance)
      (hholds : s.hierarchy.Holds c declaring depth holder)
      (hinfo : s.hierarchy.get? holder = some info)
      (hcut : ∃ i < depth, ∃ between, s.hierarchy.outwards i c = some between ∧
        ¬s.hierarchy.hasOuterInstance between) :
      Captures s c declaring d excerpt (.error ⟨.noEnclosingInstance info.name, excerpt⟩)
  /-- Every class before the holder keeps an enclosing instance. -/
  | field {depth : Nat} {holder : ClassId}
      (hplain : s.options.inlineCapturedConstants = true → d.constant? = none)
      (hthis : s.position.activation = .onInstance)
      (hholds : s.hierarchy.Holds c declaring depth holder)
      (hway : ∀ i < depth, ∃ between, s.hierarchy.outwards i c = some between ∧
        s.hierarchy.hasOuterInstance between) :
      Captures s c declaring d excerpt
        (.ok (.field (.thisAt depth) ("val$" ++ d.name) (.declaredBy holder)))

namespace Hierarchy

variable {h : Hierarchy} {c declaring holder holder' : ClassId} {depth depth' : Nat}

theorem Holds.next (hholds : h.Holds c declaring depth holder) :
    h.outwards (depth + 1) c = some declaring := by
  rw [outwards_succ, hholds.reached, Option.bind_some, hholds.inside]

/-- Only a known class has an outer link. -/
theorem Holds.known (hholds : h.Holds c declaring depth holder) :
    ∃ info, h.get? holder = some info := by
  obtain ⟨info, hinfo, -⟩ := Option.bind_eq_some_iff.1 hholds.inside
  exact ⟨info, hinfo⟩

/-- No class directly inside `declaring` is nearer than the holder. -/
theorem Holds.le (hholds : h.Holds c declaring depth holder)
    (hreached : h.outwards depth' c = some holder') (hinside : h.outer? holder' = some declaring) :
    depth ≤ depth' := by
  by_contra hlt
  refine hholds.first (depth' + 1) (by omega) (by omega) ?_
  rw [outwards_succ, hreached, Option.bind_some, hinside]

theorem Holds.unique (hholds : h.Holds c declaring depth holder)
    (hholds' : h.Holds c declaring depth' holder') : depth = depth' ∧ holder = holder' := by
  have hle := hholds.le hholds'.reached hholds'.inside
  have hge := hholds'.le hholds.reached hholds.inside
  obtain rfl : depth = depth' := by omega
  exact ⟨rfl, Option.some.inj (hholds.reached.symm.trans hholds'.reached)⟩

/-- The class before `declaring` among the classes around `c` is the holder. -/
theorem holds_of_split {passed rest : List ClassId}
    (hchain : h.enclosingChain c = passed ++ holder :: declaring :: rest) :
    h.Holds c declaring passed.length holder := by
  have hholder : h.outwards passed.length c = some holder :=
    outwards_of_enclosingChain (by simp [hchain])
  have hnext : (h.enclosingChain c)[passed.length + 1]? = some declaring := by
    rw [hchain, List.getElem?_append_right (by omega)]
    simp
  refine ⟨hholder, ?_, fun i hpos hi hdeclaring => ?_⟩
  · have hlink := outwards_of_enclosingChain hnext
    rwa [outwards_succ, hholder, Option.bind_some] at hlink
  · -- The class at index `i` would be the declaring one too, but none is listed twice.
    have hlength : passed.length + 1 < (h.enclosingChain c).length := by simp [hchain]
    obtain ⟨earlier, hearlier⟩ : ∃ earlier, (h.enclosingChain c)[i]? = some earlier :=
      ⟨_, List.getElem?_eq_getElem (by omega)⟩
    cases (outwards_of_enclosingChain hearlier).symm.trans hdeclaring
    have hsame : i = passed.length + 1 :=
      (List.getElem?_inj (by omega) (h.nodup_enclosingChain c)).1 (hearlier.trans hnext.symm)
    omega

/-- The classes in front are those that fewer links lead to. -/
theorem outwards_getElem {passed rest : List ClassId} {i : Nat}
    (hchain : h.enclosingChain c = passed ++ rest) (hi : i < passed.length) :
    h.outwards i c = some passed[i] := by
  refine outwards_of_enclosingChain ?_
  rw [hchain, List.getElem?_append_left hi, List.getElem?_eq_getElem hi]

theorem mem_passed_iff {passed rest : List ClassId} {between : ClassId}
    (hchain : h.enclosingChain c = passed ++ rest) :
    between ∈ passed ↔ ∃ i < passed.length, h.outwards i c = some between := by
  constructor
  · intro hmem
    obtain ⟨i, hi, rfl⟩ := List.mem_iff_getElem.1 hmem
    exact ⟨i, hi, outwards_getElem hchain hi⟩
  · rintro ⟨i, hi, hbetween⟩
    cases (outwards_getElem hchain hi).symm.trans hbetween
    exact List.getElem_mem hi

theorem holder?_of_not_mem (hout : declaring ∉ h.enclosingChain c) :
    holder? declaring (h.enclosingChain c) = none := by
  rw [Option.eq_none_iff_forall_ne_some]
  rintro ⟨passed, holder⟩ hholder
  obtain ⟨rest, hchain⟩ := holder?_eq_some hholder
  exact hout (by simp [hchain])

/-- For a class around `c`, the search along the classes of the position finds the holder. -/
theorem exists_holder? (hne : declaring ≠ c) (hin : declaring ∈ h.enclosingChain c) :
    ∃ passed holder rest, holder? declaring (h.enclosingChain c) = some (passed, holder) ∧
      h.enclosingChain c = passed ++ holder :: declaring :: rest := by
  cases hholder : holder? declaring (h.enclosingChain c) with
  | none =>
      have htail := holder?_eq_none hholder
      obtain ⟨rest, hrest⟩ := List.head?_eq_some_iff.1 (h.head?_enclosingChain c)
      rw [hrest] at hin htail
      exact absurd ((List.mem_cons.1 hin).resolve_left hne) htail
  | some found =>
      obtain ⟨rest, hchain⟩ := holder?_eq_some hholder
      exact ⟨found.1, found.2, rest, rfl, hchain⟩

/-- A class other than the innermost is around it if and only if some class holds its locals. -/
theorem mem_enclosingChain_iff_holds (hne : declaring ≠ c) :
    declaring ∈ h.enclosingChain c ↔ ∃ depth holder, h.Holds c declaring depth holder := by
  constructor
  · intro hin
    obtain ⟨passed, holder, rest, -, hchain⟩ := exists_holder? hne hin
    exact ⟨_, _, holds_of_split hchain⟩
  · rintro ⟨depth, holder, hholds⟩
    exact mem_enclosingChain_iff.2 ⟨depth + 1, hholds.next⟩

/-- The search finds the holder, after as many classes as links lead to it. -/
theorem Holds.exists_passed (hholds : h.Holds c declaring depth holder) (hne : declaring ≠ c) :
    ∃ passed, holder? declaring (h.enclosingChain c) = some (passed, holder) ∧
      passed.length = depth ∧ ∃ rest, h.enclosingChain c = passed ++ rest := by
  obtain ⟨passed, found, rest, hfound, hchain⟩ :=
    exists_holder? hne ((mem_enclosingChain_iff_holds hne).2 ⟨_, _, hholds⟩)
  obtain ⟨hlength, rfl⟩ := (holds_of_split hchain).unique hholds
  exact ⟨passed, hfound, hlength, _, hchain⟩

end Hierarchy

namespace Site

variable {s : Site} {c declaring : ClassId} {d : LocalDecl} {excerpt : Excerpt}

theorem inlined?_eq_some_iff {value : Constant} : s.inlined? d = some value ↔
    s.options.inlineCapturedConstants = true ∧ d.constant? = some value := by
  simp [inlined?]

theorem inlined?_eq_none_iff : s.inlined? d = none ↔
    (s.options.inlineCapturedConstants = true → d.constant? = none) := by
  simp [inlined?]

theorem hasThis_iff (hclasses : s.position.classes = s.hierarchy.enclosingChain c) :
    s.position.hasThis ↔ s.position.activation = .onInstance := by
  obtain ⟨rest, hrest⟩ := List.head?_eq_some_iff.1 (s.hierarchy.head?_enclosingChain c)
  simp [Position.hasThis, hclasses, hrest]

section Found

variable {passed : List ClassId} {holder : ClassId}
  (hclasses : s.position.classes = s.hierarchy.enclosingChain c)
  (hholder : holder? declaring (s.hierarchy.enclosingChain c) = some (passed, holder))

include hclasses hholder

theorem capturedLocal_of_inlined {value : Constant} (hinlined : s.inlined? d = some value) :
    s.capturedLocal d declaring excerpt = .ok (.literal value d.ty) := by
  rw [capturedLocal, hclasses, hholder]
  dsimp only
  rw [hinlined]

theorem capturedLocal_of_static (hplain : s.inlined? d = none)
    (hstatic : s.position.activation = .static) :
    s.capturedLocal d declaring excerpt = .error ⟨.thisNotAvailable, excerpt⟩ := by
  rw [capturedLocal, hclasses, hholder]
  dsimp only
  rw [hplain]
  simp [Position.hasThis, hstatic, Excerpt.refuse]

/-- Unless a constant takes the place of the local, it is read from the holder. -/
theorem capturedLocal_of_onInstance (hplain : s.inlined? d = none)
    (hthis : s.position.activation = .onInstance) {info : ClassInfo}
    (hinfo : s.hierarchy.get? holder = some info) :
    s.capturedLocal d declaring excerpt =
      if passed.all s.hierarchy.hasOuterInstance then
        .ok (.field (.thisAt passed.length) ("val$" ++ d.name) (.declaredBy holder))
      else .error ⟨.noEnclosingInstance info.name, excerpt⟩ := by
  rw [capturedLocal, hclasses, hholder]
  dsimp only
  rw [hplain, (hasThis_iff hclasses).2 hthis, Hierarchy.nameOf_eq, hinfo]
  rfl

end Found

theorem capturedLocal_of_hidden (hclasses : s.position.classes = s.hierarchy.enclosingChain c)
    (hout : declaring ∉ s.position.classes) :
    s.capturedLocal d declaring excerpt = .error ⟨.localNotAccessible d.name, excerpt⟩ := by
  rw [capturedLocal, hclasses, Hierarchy.holder?_of_not_mem (hclasses ▸ hout)]
  rfl

/-- A captured local comes out as one of the rules says. -/
theorem captures_capturedLocal (hclasses : s.position.classes = s.hierarchy.enclosingChain c)
    (hne : declaring ≠ c) :
    s.Captures c declaring d excerpt (s.capturedLocal d declaring excerpt) := by
  by_cases hin : declaring ∈ s.position.classes
  · obtain ⟨passed, holder, rest, hholder, hchain⟩ :=
      Hierarchy.exists_holder? hne (hclasses ▸ hin)
    have hholds := Hierarchy.holds_of_split hchain
    cases hinlined : s.inlined? d with
    | some value =>
        obtain ⟨hinline, hvalue⟩ := inlined?_eq_some_iff.1 hinlined
        rw [capturedLocal_of_inlined hclasses hholder hinlined]
        exact .constant hin hinline hvalue
    | none =>
        have hplain := inlined?_eq_none_iff.1 hinlined
        cases hactivation : s.position.activation with
        | static =>
            rw [capturedLocal_of_static hclasses hholder hinlined hactivation]
            exact .static hin hplain hactivation
        | onInstance =>
            obtain ⟨info, hinfo⟩ := hholds.known
            rw [capturedLocal_of_onInstance hclasses hholder hinlined hactivation hinfo]
            by_cases hall : passed.all s.hierarchy.hasOuterInstance
            · rw [if_pos hall]
              refine .field hplain hactivation hholds fun i hi => ?_
              exact ⟨passed[i], Hierarchy.outwards_getElem hchain hi,
                List.all_eq_true.1 hall _ (List.getElem_mem hi)⟩
            · rw [if_neg hall]
              obtain ⟨between, hmem, hlacks⟩ : ∃ between ∈ passed,
                  ¬s.hierarchy.hasOuterInstance between := by simpa using hall
              obtain ⟨i, hi, hbetween⟩ := (Hierarchy.mem_passed_iff hchain).1 hmem
              exact .cut hplain hactivation hholds hinfo ⟨i, hi, between, hbetween, hlacks⟩
  · rw [capturedLocal_of_hidden hclasses hin]
    exact .hidden hin

/-- No rule says anything else of a captured local. -/
theorem Captures.eq {outcome : Except Fault Tree} (h : s.Captures c declaring d excerpt outcome)
    (hclasses : s.position.classes = s.hierarchy.enclosingChain c) (hne : declaring ≠ c) :
    s.capturedLocal d declaring excerpt = outcome := by
  cases h with
  | hidden hout => exact capturedLocal_of_hidden hclasses hout
  | constant hin hinline hvalue =>
      obtain ⟨passed, holder, rest, hholder, -⟩ := Hierarchy.exists_holder? hne (hclasses ▸ hin)
      exact capturedLocal_of_inlined hclasses hholder (inlined?_eq_some_iff.2 ⟨hinline, hvalue⟩)
  | static hin hplain hstatic =>
      obtain ⟨passed, holder, rest, hholder, -⟩ := Hierarchy.exists_holder? hne (hclasses ▸ hin)
      exact capturedLocal_of_static hclasses hholder (inlined?_eq_none_iff.2 hplain) hstatic
  | cut hplain hthis hholds hinfo hcut =>
      obtain ⟨passed, hholder, rfl, rest, hchain⟩ := hholds.exists_passed hne
      obtain ⟨i, hi, between, hbetween, hlacks⟩ := hcut
      have hmem := (Hierarchy.mem_passed_iff hchain).2 ⟨i, hi, hbetween⟩
      rw [capturedLocal_of_onInstance hclasses hholder (inlined?_eq_none_iff.2 hplain) hthis hinfo]
      exact if_neg fun hall => hlacks (List.all_eq_true.1 hall between hmem)
  | field hplain hthis hholds hway =>
      obtain ⟨passed, hholder, rfl, rest, hchain⟩ := hholds.exists_passed hne
      have hall : passed.all s.hierarchy.hasOuterInstance := by
        rw [List.all_eq_true]
        intro between hmem
        obtain ⟨i, hi, hbetween⟩ := (Hierarchy.mem_passed_iff hchain).1 hmem
        obtain ⟨between', hbetween', hkeeps⟩ := hway i hi
        cases hbetween.symm.trans hbetween'
        exact hkeeps
      obtain ⟨info, hinfo⟩ := hholds.known
      rw [capturedLocal_of_onInstance hclasses hholder (inlined?_eq_none_iff.2 hplain) hthis hinfo]
      exact if_pos hall

end Site

/-- A local of a method around the suspended code is read from the class directly inside that
method. For code inside `c` and a local of a method of another class, each outcome arises exactly as
one of the rules of `Site.Captures` says; the declaring class is around the code if and only if some
class holds the local; and the holder is the nearest class directly inside the declaring one. -/
theorem captured_locals_held (v : View) (c declaring : ClassId) (activation : Activation)
    (d : LocalDecl) (excerpt : Excerpt)
    (hposition : v.position = .within v.hierarchy c activation)
    (horigin : d.origin = .method declaring) (hne : declaring ≠ c) :
    (∀ outcome, v.localAccess d excerpt = outcome ↔
      v.Captures c declaring d excerpt outcome) ∧
    (declaring ∈ v.position.classes ↔
      ∃ depth holder, v.hierarchy.Holds c declaring depth holder) ∧
    ∀ depth holder, v.hierarchy.Holds c declaring depth holder →
      ∀ n other, v.hierarchy.outwards n c = some other →
        v.hierarchy.outer? other = some declaring → depth ≤ n := by
  have hclasses : v.position.classes = v.hierarchy.enclosingChain c := by rw [hposition]; rfl
  have hcurrent : v.position.current? ≠ some declaring := by
    rw [Position.current?, hclasses, Hierarchy.head?_enclosingChain]
    exact fun heq => hne (Option.some.inj heq).symm
  have haccess : v.localAccess d excerpt = v.capturedLocal d declaring excerpt := by
    rw [View.localAccess, horigin]
    dsimp only
    rw [if_neg hcurrent]
  refine ⟨fun outcome => ⟨?_, fun hcaptures => ?_⟩, ?_, fun depth holder hholds n other => ?_⟩
  · rintro rfl
    rw [haccess]
    exact Site.captures_capturedLocal hclasses hne
  · rw [haccess]
    exact hcaptures.eq hclasses hne
  · rw [hclasses]
    exact Hierarchy.mem_enclosingChain_iff_holds hne
  · exact hholds.le

/-- A position in a class inside a local class, of which it is also a subclass; the local class
stands in a method of a third one. -/
def Site.insideLocal (nesting : Nesting) : Site :=
  let hierarchy := (Hierarchy.empty.insert
    { id := ⟨2⟩, name := "Holder", outer := some ⟨3⟩, nesting := .localClass }).insert
    { id := ⟨1⟩, name := "Inside", superclass := some ⟨2⟩, outer := some ⟨2⟩, nesting }
  { hierarchy, position := .within hierarchy ⟨1⟩ .onInstance }

theorem Site.insideLocal_holds (nesting : Nesting) :
    (Site.insideLocal nesting).hierarchy.Holds ⟨1⟩ ⟨3⟩ 1 ⟨2⟩ := by
  refine ⟨rfl, rfl, fun i hpos hi hdeclaring => ?_⟩
  obtain rfl : i = 1 := by omega
  cases hdeclaring

/-- Inside an anonymous class, a local of that method is one step away, in the local class and not
in its subclass. A static class keeps no instance of the local class, which is what is missed. -/
theorem captured_locals_held_anonymousInLocal :
    let v (nesting : Nesting) : View :=
      { Site.insideLocal nesting with visible := fun _ => false }
    let d : LocalDecl := { name := "x", ty := .int, origin := .method ⟨3⟩ }
    (v .anonymous).hierarchy.Holds ⟨1⟩ ⟨3⟩ 1 ⟨2⟩ ∧
      (v .anonymous).localAccess d {} = .ok (.field (.thisAt 1) "val$x" (.declaredBy ⟨2⟩)) ∧
      (∀ n other, (v .anonymous).hierarchy.outwards n ⟨1⟩ = some other →
        (v .anonymous).hierarchy.outer? other = some ⟨3⟩ → 1 ≤ n) ∧
      (v .staticNested).localAccess d {} = .error ⟨.noEnclosingInstance "Holder", {}⟩ := by
  intro v d
  obtain ⟨houtcome, -, hleast⟩ :=
    captured_locals_held (v .anonymous) ⟨1⟩ ⟨3⟩ .onInstance d {} rfl rfl (by decide)
  obtain ⟨hrefused, -⟩ :=
    captured_locals_held (v .staticNested) ⟨1⟩ ⟨3⟩ .onInstance d {} rfl rfl (by decide)
  refine ⟨Site.insideLocal_holds _, (houtcome _).2 ?_, hleast 1 ⟨2⟩ (Site.insideLocal_holds _),
    (hrefused _).2 ?_⟩
  · refine .field (fun _ => rfl) rfl (Site.insideLocal_holds _) fun i hi => ?_
    obtain rfl : i = 0 := by omega
    exact ⟨⟨1⟩, rfl, rfl⟩
  · refine .cut (fun _ => rfl) rfl (Site.insideLocal_holds _) rfl ⟨0, by omega, ⟨1⟩, rfl, ?_⟩
    decide

end Breakpoint
