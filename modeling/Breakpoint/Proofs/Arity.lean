import Breakpoint.Proofs.Placement

/-!
Arguments of methods of fixed and of variable arity. A method receives as many arguments as it has
parameters. Every argument that was written is found in them once and in its place: converted to the
type of its own parameter, or among the elements of the array that collects all arguments beyond the
fixed parameters, or, if it is that array already, as it is.
-/

namespace Breakpoint

namespace MethodDecl

/-- A method that takes any number of arguments: it is marked as such, and its last parameter
collects them. -/
def Variadic (m : MethodDecl) : Prop := m.varargs = true ∧ m.params ≠ []

instance (m : MethodDecl) : Decidable m.Variadic :=
  inferInstanceAs (Decidable (m.varargs = true ∧ m.params ≠ []))

/-- The parameters that take one argument each. -/
def fixed (m : MethodDecl) : List Ty := if m.Variadic then m.params.dropLast else m.params

/-- A method does not take these arguments: it takes another number of them, or it would collect
them in something that is no array. -/
def Misfits (m : MethodDecl) (args : List Operand) : Prop :=
  (¬m.Variadic ∧ args.length ≠ m.params.length) ∨
    (m.Variadic ∧ (args.length < m.fixed.length ∨
      ∀ collecting ∈ m.params.getLast?, collecting.component? = none))

end MethodDecl

namespace Hierarchy

/-- There is one argument for each parameter, and the last one can be the array that the collecting
parameter wants. -/
def PassesWhole (h : Hierarchy) (m : MethodDecl) (args : List Operand) : Prop :=
  args.length = m.params.length ∧
    ∃ last collecting, args.getLast? = some last ∧ m.params.getLast? = some collecting ∧
      (last.ty = .null ∨ (last.ty.isArray ∧ h.isAssignable last.ty collecting))

/-- The trees that a method receives for its arguments. -/
structure Receives (h : Hierarchy) (m : MethodDecl) (args : List Operand) (trees : List Tree) :
    Prop where
  count : trees.length = m.params.length
  each : ∀ i < m.fixed.length, ∃ param arg, m.params[i]? = some param ∧ args[i]? = some arg ∧
    trees[i]? = some (arg.assignTo param).tree
  whole : m.Variadic → h.PassesWhole m args → trees.getLast? = args.getLast?.map Operand.tree
  collected : m.Variadic → ¬h.PassesWhole m args →
    ∃ collecting component elements, m.params.getLast? = some collecting ∧
      collecting.component? = some component ∧
      trees.getLast? = some (.newArray collecting none (some elements)) ∧
      ∀ j, elements[j]? =
        args[m.fixed.length + j]?.map fun arg => (arg.assignTo component).tree

end Hierarchy

namespace MethodDecl

variable {m : MethodDecl}

theorem variadic?_of_not_variadic (hm : ¬m.Variadic) : m.variadic? = none := by
  unfold variadic?
  split_ifs with hvarargs
  · have hparams : m.params = [] := by
      by_contra hne
      exact hm ⟨hvarargs, hne⟩
    rw [hparams]
    rfl
  · rfl

/-- The parameters of a method of variable arity are the fixed ones and the one that collects. -/
theorem Variadic.exists_collecting (hm : m.Variadic) :
    ∃ collecting, m.params = m.fixed ++ [collecting] ∧
      m.variadic? = some (m.fixed, collecting) := by
  refine ⟨m.params.getLast hm.2, ?_, ?_⟩
  · rw [fixed, if_pos hm, List.dropLast_concat_getLast]
  · rw [fixed, if_pos hm, variadic?, if_pos hm.1, List.getLast?_eq_some_getLast hm.2,
      Option.map_some]

theorem fixed_of_not_variadic (hm : ¬m.Variadic) : m.fixed = m.params := if_neg hm

theorem misfits_iff_of_not_variadic (hm : ¬m.Variadic) {args : List Operand} :
    m.Misfits args ↔ args.length ≠ m.params.length := by
  simp [Misfits, hm]

theorem misfits_iff_of_variadic (hm : m.Variadic) {collecting : Ty} {args : List Operand}
    (hparams : m.params = m.fixed ++ [collecting]) :
    m.Misfits args ↔ args.length < m.fixed.length ∨ collecting.component? = none := by
  have hlast : m.params.getLast? = some collecting := by rw [hparams, List.getLast?_concat]
  simp [Misfits, hm, hlast]

end MethodDecl

/-- What is stored as an array is not converted. -/
theorem Operand.assignTo_of_component? {collecting component : Ty}
    (hcomponent : collecting.component? = some component) (x : Operand) :
    x.assignTo collecting = x := by
  obtain ⟨element, dims, rfl⟩ : ∃ element dims, collecting = .array element dims := by
    cases collecting with
    | array element dims => exact ⟨element, dims, rfl⟩
    | _ => cases hcomponent
  unfold assignTo
  split_ifs
  · rfl
  · rfl

theorem getElem?_assignEach {params : List Ty} {args : List Operand} {i : Nat} {param : Ty}
    {arg : Operand} (hparam : params[i]? = some param) (harg : args[i]? = some arg) :
    (assignEach params args)[i]? = some (arg.assignTo param).tree := by
  simp [assignEach, List.getElem?_zipWith, hparam, harg]

namespace Hierarchy

variable {h : Hierarchy} {m : MethodDecl} {args : List Operand} {excerpt : Excerpt}
  {collecting component : Ty}

theorem passesWhole_iff (hparams : m.params = m.fixed ++ [collecting]) :
    h.PassesWhole m args ↔
      (args.length = m.params.length && h.fitsWhole collecting args) = true := by
  have hlast : m.params.getLast? = some collecting := by rw [hparams, List.getLast?_concat]
  have hnull (ty : Ty) : ty.isNull = true ↔ ty = .null := by cases ty <;> simp [Ty.isNull]
  simp [PassesWhole, fitsWhole, hlast, Option.any_eq_true, hnull]

/-- A method of fixed arity takes one argument for each parameter. -/
theorem arguments_of_not_variadic (hm : ¬m.Variadic) : h.arguments m args excerpt =
    if args.length = m.params.length then .ok (assignEach m.params args)
    else .error ⟨.unresolvedMethod m.name, excerpt⟩ := by
  rw [arguments, MethodDecl.variadic?_of_not_variadic hm]
  rfl

theorem arguments_of_misfits (hmisfits : m.Misfits args) :
    h.arguments m args excerpt = .error ⟨.unresolvedMethod m.name, excerpt⟩ := by
  by_cases hm : m.Variadic
  · obtain ⟨collecting, hparams, hvariadic⟩ := hm.exists_collecting
    rw [arguments, hvariadic]
    dsimp only
    rcases (MethodDecl.misfits_iff_of_variadic hm hparams).1 hmisfits with hfew | hnone
    · rw [if_pos hfew]
      rfl
    · rw [hnone]
      exact ite_self _
  · rw [arguments_of_not_variadic hm]
    exact if_neg ((MethodDecl.misfits_iff_of_not_variadic hm).1 hmisfits)

/-- With enough arguments and an array to collect them, either the last argument is that array or a
new one is made. -/
theorem arguments_of_variadic (hm : m.Variadic) (hparams : m.params = m.fixed ++ [collecting])
    (hmany : m.fixed.length ≤ args.length) (hcomponent : collecting.component? = some component) :
    h.arguments m args excerpt =
      if args.length = m.params.length && h.fitsWhole collecting args then
        .ok (assignEach m.params args)
      else
        .ok (assignEach m.fixed (args.take m.fixed.length) ++ [.newArray collecting none
          (some ((args.drop m.fixed.length).map fun arg => (arg.assignTo component).tree))]) := by
  obtain ⟨collecting', hparams', hvariadic⟩ := hm.exists_collecting
  obtain rfl : collecting = collecting' := by
    simpa using List.append_cancel_left (hparams.symm.trans hparams')
  rw [arguments, hvariadic]
  dsimp only
  rw [if_neg (by omega), hcomponent]

/-- With as many arguments as parameters, each argument goes to the parameter of the same index. -/
theorem exists_getElem?_assignEach {params : List Ty} (hlength : args.length = params.length)
    {i : Nat} (hi : i < params.length) :
    ∃ param arg, params[i]? = some param ∧ args[i]? = some arg ∧
      (assignEach params args)[i]? = some (arg.assignTo param).tree := by
  have hparam := List.getElem?_eq_getElem hi
  have harg := List.getElem?_eq_getElem (show i < args.length by omega)
  exact ⟨_, _, hparam, harg, getElem?_assignEach hparam harg⟩

theorem receives_of_not_variadic (hm : ¬m.Variadic) (hlength : args.length = m.params.length) :
    h.Receives m args (assignEach m.params args) where
  count := by rw [length_assignEach, hlength, Nat.min_self]
  each i hi := by
    rw [MethodDecl.fixed_of_not_variadic hm] at hi
    exact exists_getElem?_assignEach hlength hi
  whole hm' := absurd hm' hm
  collected hm' := absurd hm' hm

/-- The array that was passed for the collecting parameter is received as it is. -/
theorem receives_of_passesWhole (hparams : m.params = m.fixed ++ [collecting])
    (hcomponent : collecting.component? = some component) (hwhole : h.PassesWhole m args) :
    h.Receives m args (assignEach m.params args) where
  count := by rw [length_assignEach, hwhole.1, Nat.min_self]
  each i hi := by
    have hcount := congrArg List.length hparams
    rw [List.length_append, List.length_singleton] at hcount
    exact exists_getElem?_assignEach hwhole.1 (by omega)
  whole _ _ := by
    obtain ⟨hlength, last, _, hlast, -⟩ := hwhole
    obtain ⟨front, rfl⟩ := List.getLast?_eq_some_iff.1 hlast
    have hfront : m.fixed.length = front.length := by
      have hcount := congrArg List.length hparams
      simp only [List.length_append, List.length_singleton] at hcount hlength
      omega
    calc (assignEach m.params (front ++ [last])).getLast?
      _ = (assignEach m.fixed front ++ [(last.assignTo collecting).tree]).getLast? := by
          rw [hparams, assignEach, List.zipWith_append hfront]
          rfl
      _ = some last.tree := by
          rw [List.getLast?_concat, Operand.assignTo_of_component? hcomponent]
      _ = (front ++ [last]).getLast?.map Operand.tree := by
          rw [List.getLast?_concat, Option.map_some]
  collected _ hnot := absurd hwhole hnot

/-- The arguments beyond the fixed parameters are received as the elements of one array. -/
theorem receives_collected (hparams : m.params = m.fixed ++ [collecting])
    (hmany : m.fixed.length ≤ args.length) (hcomponent : collecting.component? = some component)
    (hnot : ¬h.PassesWhole m args) :
    h.Receives m args (assignEach m.fixed (args.take m.fixed.length) ++
      [.newArray collecting none
        (some ((args.drop m.fixed.length).map fun arg => (arg.assignTo component).tree))]) := by
  have htake : (args.take m.fixed.length).length = m.fixed.length := by
    rw [List.length_take]
    omega
  have heach : (assignEach m.fixed (args.take m.fixed.length)).length = m.fixed.length := by
    rw [length_assignEach, htake, Nat.min_self]
  refine ⟨?_, fun i hi => ?_, fun _ hwhole => absurd hwhole hnot, fun _ _ => ?_⟩
  · rw [hparams, List.length_append, List.length_append, heach]
    rfl
  · obtain ⟨param, arg, hparam, harg, htree⟩ := exists_getElem?_assignEach htake hi
    refine ⟨param, arg, ?_, ?_, ?_⟩
    · rw [hparams, List.getElem?_append_left hi, hparam]
    · rwa [List.getElem?_take_of_lt hi] at harg
    · rw [List.getElem?_append_left (by omega), htree]
  · refine ⟨collecting, component, _, by rw [hparams, List.getLast?_concat], hcomponent,
      List.getLast?_concat, fun j => ?_⟩
    rw [List.getElem?_map, List.getElem?_drop]

end Hierarchy

/-- No argument is lost, doubled or moved when it is passed. A method refuses its arguments if and
only if they misfit it: of fixed arity, by another number of them than of parameters; of variable
arity, by fewer of them than fixed parameters, or because what collects them is no array. Otherwise
it receives a tree for each parameter: each argument for a fixed parameter in its place, and for the
collecting one the last argument itself or an array of all arguments that are left, in order. -/
theorem arguments_in_place (h : Hierarchy) (m : MethodDecl) (args : List Operand)
    (excerpt : Excerpt) :
    (h.arguments m args excerpt = .error ⟨.unresolvedMethod m.name, excerpt⟩ ↔
      m.Misfits args) ∧
    (¬m.Misfits args →
      ∃ trees, h.arguments m args excerpt = .ok trees ∧ h.Receives m args trees) := by
  have hreceives (hfits : ¬m.Misfits args) :
      ∃ trees, h.arguments m args excerpt = .ok trees ∧ h.Receives m args trees := by
    by_cases hm : m.Variadic
    · obtain ⟨collecting, hparams, -⟩ := hm.exists_collecting
      rw [MethodDecl.misfits_iff_of_variadic hm hparams, not_or] at hfits
      obtain ⟨component, hcomponent⟩ := Option.ne_none_iff_exists'.1 hfits.2
      have hmany : m.fixed.length ≤ args.length := by omega
      rw [Hierarchy.arguments_of_variadic hm hparams hmany hcomponent]
      by_cases hpasses : h.PassesWhole m args
      · rw [if_pos ((Hierarchy.passesWhole_iff hparams).1 hpasses)]
        exact ⟨_, rfl, Hierarchy.receives_of_passesWhole hparams hcomponent hpasses⟩
      · rw [if_neg fun hwhole => hpasses ((Hierarchy.passesWhole_iff hparams).2 hwhole)]
        exact ⟨_, rfl, Hierarchy.receives_collected hparams hmany hcomponent hpasses⟩
    · rw [MethodDecl.misfits_iff_of_not_variadic hm, not_not] at hfits
      refine ⟨_, ?_, Hierarchy.receives_of_not_variadic hm hfits⟩
      rw [Hierarchy.arguments_of_not_variadic hm, if_pos hfits]
  refine ⟨⟨fun herror => ?_, Hierarchy.arguments_of_misfits⟩, hreceives⟩
  by_contra hfits
  obtain ⟨trees, htrees, -⟩ := hreceives hfits
  cases herror.symm.trans htrees

/-- A method that logs numbers: a format, then any number of `long` values. -/
def MethodDecl.logNumbers : MethodDecl :=
  { name := "log", declaring := ⟨1⟩, params := [.string, .array (.prim .long) 1], varargs := true }

/-- Two numbers after the format are widened and collected. -/
theorem arguments_in_place_logNumbers :
    let format : Operand := ⟨.localVar "format" .frame, .string⟩
    let number (value : Int32) : Operand := ⟨.literal (.int value) .int, .int⟩
    let args := [format, number 1, number 2]
    let widened (value : Int32) : Tree := .cast (.literal (.int value) .int) (.prim .long)
    let trees := [format.tree,
      .newArray (.array (.prim .long) 1) none (some [widened 1, widened 2])]
    ¬MethodDecl.logNumbers.Misfits args ∧
      Hierarchy.empty.arguments .logNumbers args {} = .ok trees ∧
      Hierarchy.empty.Receives .logNumbers args trees := by
  intro format number args widened trees
  have hfits : ¬MethodDecl.logNumbers.Misfits args := by
    rw [MethodDecl.misfits_iff_of_variadic (by decide) rfl]
    decide
  have htrees : Hierarchy.empty.arguments .logNumbers args {} = .ok trees := rfl
  obtain ⟨received, hreceived, hreceives⟩ :=
    (arguments_in_place Hierarchy.empty .logNumbers args {}).2 hfits
  cases htrees.symm.trans hreceived
  exact ⟨hfits, htrees, hreceives⟩

end Breakpoint
