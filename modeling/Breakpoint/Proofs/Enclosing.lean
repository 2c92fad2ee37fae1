import Breakpoint.Proofs.Hops
import Mathlib.Data.List.Chain

/-!
The classes around a class. They are listed from the inside out, as far as the outer links lead to
classes that are not listed yet. No class is listed twice, the class at an index is the one that as
many links lead to, and cutting a cycle loses nothing: every class that links lead to is listed.
-/

namespace Breakpoint.Hierarchy

variable {h : Hierarchy} {c d id outer : ClassId} {seen : List ClassId} {n : Nat}

/-- The last of several links. -/
theorem outwards_succ (n : Nat) (c : ClassId) :
    h.outwards (n + 1) c = (h.outwards n c).bind h.outer? := by
  induction n generalizing c with
  | zero => simp [outwards]
  | succ n ih =>
      calc h.outwards (n + 1 + 1) c
        _ = (h.outer? c).bind (h.outwards (n + 1)) := rfl
        _ = (h.outer? c).bind fun outer => (h.outwards n outer).bind h.outer? := by rw [← funext ih]
        _ = ((h.outer? c).bind (h.outwards n)).bind h.outer? := by rw [Option.bind_assoc]
        _ = (h.outwards (n + 1) c).bind h.outer? := rfl

theorem not_mem_seen_of_mem (hc : c ∈ h.outwardFrom seen id) : c ∉ seen := by
  fun_induction h.outwardFrom seen id with
  | case1 seen id hseen => simp at hc
  | case2 seen id hfresh ih =>
      rcases List.mem_cons.1 hc with rfl | hc
      · exact hfresh
      · split at hc
        · simp at hc
        next outer houter =>
          exact fun hmem => ih outer houter hc (List.mem_cons_of_mem _ hmem)

theorem nodup_outwardFrom (seen : List ClassId) (id : ClassId) :
    (h.outwardFrom seen id).Nodup := by
  fun_induction h.outwardFrom seen id with
  | case1 seen id hseen => exact List.nodup_nil
  | case2 seen id hfresh ih =>
      split
      · simp
      next outer houter =>
        refine List.nodup_cons.2 ⟨fun hmem => ?_, ih outer houter⟩
        exact not_mem_seen_of_mem hmem List.mem_cons_self

theorem mem_outwardFrom_self (hfresh : id ∉ seen) : id ∈ h.outwardFrom seen id := by
  rw [outwardFrom_of_fresh hfresh]
  exact List.mem_cons_self

/-- A link leads from a listed class to a listed class, or back to one that was seen before. -/
theorem outer_mem_outwardFrom (hc : c ∈ h.outwardFrom seen id) (houter : h.outer? c = some outer) :
    outer ∈ h.outwardFrom seen id ∨ outer ∈ seen := by
  fun_induction h.outwardFrom seen id with
  | case1 seen id hseen => simp at hc
  | case2 seen id hfresh ih =>
      -- The class itself was put among those seen, so a link back to it stays in the list.
      rcases List.mem_cons.1 hc with rfl | hc
      · by_cases hseen : outer ∈ c :: seen
        · rcases List.mem_cons.1 hseen with rfl | hseen
          · exact .inl List.mem_cons_self
          · exact .inr hseen
        · split
          next hnone => cases hnone.symm.trans houter
          next next hnext =>
            cases hnext.symm.trans houter
            exact .inl (List.mem_cons_of_mem _ (mem_outwardFrom_self hseen))
      · split at hc
        · simp at hc
        next next hnext =>
          rcases ih next hnext hc with hmem | hmem
          · exact .inl (List.mem_cons_of_mem _ hmem)
          · rcases List.mem_cons.1 hmem with rfl | hmem
            · exact .inl List.mem_cons_self
            · exact .inr hmem

/-- What was seen before matters only as a set. -/
theorem outwardFrom_congr {seen' : List ClassId} (hsame : ∀ x, x ∈ seen ↔ x ∈ seen') :
    h.outwardFrom seen id = h.outwardFrom seen' id := by
  fun_induction h.outwardFrom seen id generalizing seen' with
  | case1 seen id hseen => rw [outwardFrom, if_pos ((hsame id).1 hseen)]
  | case2 seen id hfresh ih =>
      rw [outwardFrom_of_fresh fun hseen => hfresh ((hsame id).2 hseen)]
      congr 1
      split
      next hnone => rw [hnone, Option.map_none, Option.getD_none]
      next outer houter =>
        rw [houter, Option.map_some, Option.getD_some]
        exact ih outer houter fun x => by rw [List.mem_cons, List.mem_cons, hsame]

theorem length_outwardFrom_le (seen : List ClassId) (id : ClassId) :
    (h.outwardFrom seen id).length ≤ h.unseen seen + 1 := by
  fun_induction h.outwardFrom seen id with
  | case1 seen id hseen => simp
  | case2 seen id hfresh ih =>
      split
      · simp
      next outer houter =>
        -- A class with an outer link is known, so there is one class fewer to see.
        obtain ⟨info, hinfo, -⟩ := Option.bind_eq_some_iff.1 houter
        have hlt := unseen_cons_lt hinfo hfresh
        have hle := ih outer houter
        rw [List.length_cons]
        omega

theorem nodup_enclosingChain (c : ClassId) : (h.enclosingChain c).Nodup := nodup_outwardFrom [] c

theorem head?_enclosingChain (c : ClassId) : (h.enclosingChain c).head? = some c := by
  rw [enclosingChain, outwardFrom_of_fresh List.not_mem_nil, List.head?_cons]

theorem unseen_nil : h.unseen [] = h.size := by simp [unseen, size]

theorem length_enclosingChain_le (c : ClassId) : (h.enclosingChain c).length ≤ h.size + 1 := by
  have hle := length_outwardFrom_le (h := h) [] c
  rwa [unseen_nil] at hle

theorem outer_mem_enclosingChain (hd : d ∈ h.enclosingChain c) (houter : h.outer? d = some outer) :
    outer ∈ h.enclosingChain c :=
  (outer_mem_outwardFrom hd houter).resolve_right List.not_mem_nil

/-- The class at an index is the one that as many links lead to. -/
theorem outwards_of_enclosingChain (hn : (h.enclosingChain c)[n]? = some d) :
    h.outwards n c = some d :=
  outwards_of_outwardFrom hn

/-- The classes around a class are those that outer links lead to from it. -/
theorem mem_enclosingChain_iff : d ∈ h.enclosingChain c ↔ ∃ n, h.outwards n c = some d := by
  constructor
  · intro hd
    obtain ⟨n, hn⟩ := List.mem_iff_getElem?.1 hd
    exact ⟨n, outwards_of_enclosingChain hn⟩
  · rintro ⟨n, hn⟩
    induction n generalizing d with
    | zero =>
        cases hn
        exact mem_outwardFrom_self List.not_mem_nil
    | succ n ih =>
        rw [outwards_succ] at hn
        obtain ⟨inner, hinner, hd⟩ := Option.bind_eq_some_iff.1 hn
        exact outer_mem_enclosingChain (ih hinner) hd

/-- The list is the path from `c` outwards, with no class on it twice: each class is the outer link
of the one before it, and the last class is unknown, has no outer link, or has one that leads back
to the list. -/
structure OuterPath (h : Hierarchy) (c : ClassId) (path : List ClassId) : Prop where
  starts : path.head? = some c
  nodup : path.Nodup
  linked : path.IsChain fun inner outer => h.outer? inner = some outer
  ends : ∀ last, path.getLast? = some last → h.get? last = none ∨
    ∃ info, h.get? last = some info ∧
      (info.outer = none ∨ ∃ outer, info.outer = some outer ∧ outer ∈ path)

theorem isChain_enclosingChain (c : ClassId) :
    (h.enclosingChain c).IsChain fun inner outer => h.outer? inner = some outer := by
  rw [List.isChain_iff_getElem]
  intro i hi
  have hinner := outwards_of_enclosingChain (List.getElem?_eq_getElem (Nat.lt_of_succ_lt hi))
  have houter := outwards_of_enclosingChain (List.getElem?_eq_getElem hi)
  rwa [outwards_succ, hinner, Option.bind_some] at houter

theorem outerPath_enclosingChain (c : ClassId) : h.OuterPath c (h.enclosingChain c) where
  starts := head?_enclosingChain c
  nodup := nodup_enclosingChain c
  linked := isChain_enclosingChain c
  ends last hlast := by
    have hmem := List.mem_of_getLast? hlast
    cases hget : h.get? last with
    | none => exact .inl rfl
    | some info =>
        refine .inr ⟨info, rfl, ?_⟩
        cases houter : info.outer with
        | none => exact .inl rfl
        | some outer =>
            have hlink : h.outer? last = some outer := by
              rw [outer?, hget, Option.bind_some, houter]
            exact .inr ⟨outer, rfl, outer_mem_enclosingChain hmem hlink⟩

theorem OuterPath.outer_mem {path : List ClassId} (hpath : h.OuterPath c path) {last : ClassId}
    (hlast : path.getLast? = some last) (houter : h.outer? last = some outer) : outer ∈ path := by
  rcases hpath.ends last hlast with hnone | ⟨info, hinfo, hnone | ⟨outer', houter', hmem⟩⟩
  · simp [outer?, hnone] at houter
  · simp [outer?, hinfo, hnone] at houter
  · obtain rfl : outer' = outer := by simpa [outer?, hinfo, houter'] using houter
    exact hmem

/-- A path of links that goes on as far as it can, without meeting a class of its own or one in
`seen`, consists of the links followed up to a class in `seen`. -/
theorem eq_outwardFrom {path : List ClassId} (hhead : path.head? = some id) (hnodup : path.Nodup)
    (hfresh : ∀ x ∈ path, x ∉ seen)
    (hlinked : path.IsChain fun inner outer => h.outer? inner = some outer)
    (hends : ∀ last outer, path.getLast? = some last → h.outer? last = some outer →
      outer ∈ path ∨ outer ∈ seen) : path = h.outwardFrom seen id := by
  induction path generalizing id seen with
  | nil => cases hhead
  | cons first rest ih =>
      cases hhead
      rw [outwardFrom_of_fresh (hfresh first List.mem_cons_self)]
      congr 1
      cases rest with
      | nil =>
          cases houter : h.outer? first with
          | none => rfl
          | some outer =>
              have hback : outer ∈ first :: seen := by
                rcases hends first outer rfl houter with hmem | hmem
                · exact List.mem_cons.2 (.inl (List.mem_singleton.1 hmem))
                · exact List.mem_cons_of_mem _ hmem
              rw [Option.map_some, Option.getD_some, outwardFrom, if_pos hback]
      | cons next rest =>
          have hlink : h.outer? first = some next := (List.isChain_cons_cons.1 hlinked).1
          rw [hlink, Option.map_some, Option.getD_some]
          refine ih rfl hnodup.of_cons ?_ (List.isChain_cons_cons.1 hlinked).2 ?_
          · intro x hx hseen
            rcases List.mem_cons.1 hseen with rfl | hseen
            · exact (List.nodup_cons.1 hnodup).1 hx
            · exact hfresh x (List.mem_cons_of_mem _ hx) hseen
          · intro last outer hlast houter
            rcases hends last outer (by rw [List.getLast?_cons_cons, hlast]) houter with hmem | hmem
            · rcases List.mem_cons.1 hmem with rfl | hmem
              · exact .inr List.mem_cons_self
              · exact .inl hmem
            · exact .inr (List.mem_cons_of_mem _ hmem)

/-- There is only one path outwards. -/
theorem outerPath_iff {path : List ClassId} : h.OuterPath c path ↔ path = h.enclosingChain c := by
  constructor
  · intro hpath
    refine eq_outwardFrom hpath.starts hpath.nodup (fun _ _ => List.not_mem_nil) hpath.linked ?_
    exact fun last outer hlast houter => .inl (hpath.outer_mem hlast houter)
  · rintro rfl
    exact outerPath_enclosingChain c

/-- How far a walk outwards has come: the classes listed so far, and the link to follow next. -/
structure Walk where
  listed : List ClassId
  next? : Option ClassId

namespace Walk

variable {w w' : Walk}

/-- The walk from `c` before its first round. -/
def start (h : Hierarchy) (c : ClassId) : Walk := ⟨[c], h.outer? c⟩

/-- A round of the walk lists the class that the link leads to. The walk is over if there is no
link, or if it leads to a class that was listed before. -/
def step? (h : Hierarchy) (w : Walk) : Option Walk :=
  match w.next? with
  | none => none
  | some id => if id ∈ w.listed then none else some ⟨w.listed ++ [id], h.outer? id⟩

/-- The walk after a number of rounds, if there are as many. -/
def after (h : Hierarchy) : Nat → Walk → Option Walk
  | 0, w => some w
  | rounds + 1, w => (w.step? h).bind (after h rounds)

/-- The classes listed so far, and those that are still to be listed. -/
def whole (h : Hierarchy) (w : Walk) : List ClassId :=
  w.listed ++ (w.next?.map (h.outwardFrom w.listed)).getD []

theorem step?_eq_some (hstep : w.step? h = some w') :
    ∃ id, w.next? = some id ∧ id ∉ w.listed ∧ w' = ⟨w.listed ++ [id], h.outer? id⟩ := by
  unfold step? at hstep
  split at hstep
  · cases hstep
  next id hnext =>
    split at hstep
    · cases hstep
    next hfresh =>
      cases hstep
      exact ⟨id, hnext, hfresh, rfl⟩

/-- A round does not change what the walk comes to. -/
theorem whole_of_step? (hstep : w.step? h = some w') : w'.whole h = w.whole h := by
  obtain ⟨id, hnext, hfresh, rfl⟩ := step?_eq_some hstep
  have hseen : h.outwardFrom (w.listed ++ [id]) = h.outwardFrom (id :: w.listed) :=
    funext fun _ => outwardFrom_congr (by simp [or_comm])
  rw [whole, whole, hnext, Option.map_some, Option.getD_some, outwardFrom_of_fresh hfresh, hseen,
    List.append_assoc, List.singleton_append]

/-- A walk that is over has listed all. -/
theorem whole_of_final (hfinal : w.step? h = none) : w.whole h = w.listed := by
  unfold step? at hfinal
  unfold whole
  split at hfinal
  next hnext => simp [hnext]
  next id hnext =>
    split at hfinal
    next hmem => simp [hnext, outwardFrom, hmem]
    · cases hfinal

theorem length_listed_le (w : Walk) : w.listed.length ≤ (w.whole h).length := by
  simp [whole]

/-- Every walk ends, after as many rounds as there were classes still to be listed. -/
theorem exists_final (h : Hierarchy) (w : Walk) :
    ∃ rounds last, w.after h rounds = some last ∧ last.step? h = none ∧
      last.listed = w.whole h ∧ w.listed.length + rounds = (w.whole h).length := by
  -- A round keeps the whole and lists one class more of it, so fewer are left each time.
  cases hstep : w.step? h with
  | none => exact ⟨0, w, rfl, hstep, (whole_of_final hstep).symm, by simp [whole_of_final hstep]⟩
  | some w' =>
      obtain ⟨id, -, -, hw'⟩ := step?_eq_some hstep
      have hlength : w'.listed.length = w.listed.length + 1 := by simp [hw']
      have hwhole := whole_of_step? hstep
      have hle := w'.length_listed_le (h := h)
      obtain ⟨rounds, last, hafter, hfinal, hlisted, hrounds⟩ := w'.exists_final h
      rw [hwhole] at hlisted hrounds
      refine ⟨rounds + 1, last, ?_, hfinal, hlisted, by omega⟩
      rw [after, hstep, Option.bind_some, hafter]
termination_by (w.whole h).length - w.listed.length
decreasing_by
  rw [hwhole] at hle ⊢
  omega

end Walk

theorem Walk.whole_start (c : ClassId) : (start h c).whole h = h.enclosingChain c := by
  rw [enclosingChain, outwardFrom_of_fresh List.not_mem_nil]
  rfl

/-- The classes around a class are the whole path outwards from it, on every graph of outer links.
They are the one list that starts with the class, follows the links, meets no class twice and ends
where no link leads to a class off the list; a class is listed if and only if links lead to it. And
the list is found: a walk that lists one class in each round is over after no more rounds than there
are known classes, and has then listed these classes in this order. -/
theorem outer_path_complete (h : Hierarchy) (c : ClassId) :
    (∀ path, h.OuterPath c path ↔ path = h.enclosingChain c) ∧
    (∀ d, d ∈ h.enclosingChain c ↔ ∃ n, h.outwards n c = some d) ∧
    ∃ rounds last, rounds ≤ h.size ∧ (Walk.start h c).after h rounds = some last ∧
      last.step? h = none ∧ last.listed = h.enclosingChain c := by
  refine ⟨fun path => outerPath_iff, fun d => mem_enclosingChain_iff, ?_⟩
  obtain ⟨rounds, last, hafter, hfinal, hlisted, hrounds⟩ := (Walk.start h c).exists_final h
  rw [Walk.whole_start] at hlisted hrounds
  have hle := length_enclosingChain_le (h := h) c
  have hone : (Walk.start h c).listed.length = 1 := rfl
  exact ⟨rounds, last, by omega, hafter, hfinal, hlisted⟩

/-- Two classes that are nested in each other are both listed once. -/
example :
    ((empty.insert { id := ⟨2⟩, name := "Even", outer := some ⟨1⟩ }).insert
      { id := ⟨1⟩, name := "Odd", outer := some ⟨2⟩ }).enclosingChain ⟨1⟩ = [⟨1⟩, ⟨2⟩] := by
  cbv

end Breakpoint.Hierarchy
