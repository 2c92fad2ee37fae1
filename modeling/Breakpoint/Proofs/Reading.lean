import Breakpoint.Proofs.Atoms

/-!
Reading s-expressions. The text of an s-expression shows where it ends, as long as a blank or a
closing parenthesis comes after it. So the text of a whole s-expression is the text of no other, if
its atoms can be read and its heads are bare.
-/

namespace Breakpoint.Sexp

/-- The s-expressions whose atoms can be read and whose heads are bare. -/
inductive Legible : Sexp → Prop where
  | atom {text : String} (h : Token text) : Legible (atom text)
  | form {head : String} {args : List Sexp} (h : Bare head) (hargs : ∀ s ∈ args, Legible s) :
      Legible (form head args)
  | group {items : List Sexp} (hitems : ∀ s ∈ items, Legible s) : Legible (group items)
  | braces {items : List Sexp} (hitems : ∀ s ∈ items, Legible s) : Legible (braces items)

theorem Token.exists_cons {text : String} (h : Token text) : ∃ c tail, text.toList = c :: tail ∧
    c ∉ ['(', ')', '\x7b', '\x7d'] := by
  cases h with
  | bare h =>
      obtain ⟨c, tail, htext, hc⟩ := h.exists_cons
      refine ⟨c, tail, htext, fun hmem => ?_⟩
      rw [isPlain, decide_eq_true_iff] at hc
      exact hc (by simp_all)
  | char c => exact ⟨_, _, toList_quoteChar c, by decide⟩
  | string s => exact ⟨_, _, toList_quoteString s, by decide⟩

/-- The constructor of the s-expression that begins a text, by its number. -/
def opened : List Char → Nat
  | '(' :: ' ' :: _ => 2
  | '(' :: _ => 1
  | '\x7b' :: _ => 3
  | _ => 0

theorem opened_chars {s : Sexp} (h : s.Legible) (rest : List Char) :
    opened (s.chars ++ rest) = s.ctorIdx := by
  cases h with
  | atom h =>
      obtain ⟨c, tail, htext, hc⟩ := h.exists_cons
      rw [chars, htext, List.cons_append]
      unfold opened
      split
      · simp_all
      · simp_all
      · simp_all
      · rfl
  | @form head args h hargs =>
      obtain ⟨c, tail, htext, hc⟩ := h.exists_cons
      rw [chars, htext]
      simp only [List.cons_append]
      unfold opened
      split
      · rename_i heq
        cases heq
        cases hc
      · rfl
      · simp_all
      · simp_all
  | @group items hitems => cases items <;> rfl
  | @braces items hitems => rfl

/-- S-expressions that begin one text are of the same kind. -/
theorem ctorIdx_eq_of_chars_eq {s t : Sexp} {rest rest' : List Char} (hs : s.Legible)
    (ht : t.Legible) (h : s.chars ++ rest = t.chars ++ rest') : t.ctorIdx = s.ctorIdx := by
  rw [← opened_chars ht rest', ← h, opened_chars hs]

/-- The ends of lists. -/
def Closes (rest : List Char) : Prop :=
  (∃ tail, rest = ')' :: tail) ∨ ∃ c tail, rest = ' ' :: c :: tail ∧ c ∈ [')', '\x7d']

theorem closes_parenthesis (tail : List Char) : Closes (')' :: tail) := .inl ⟨tail, rfl⟩

theorem closes_blank {c : Char} (h : c ∈ [')', '\x7d']) (tail : List Char) :
    Closes (' ' :: c :: tail) :=
  .inr ⟨c, tail, rfl, h⟩

theorem Closes.stops {rest : List Char} (h : Closes rest) : Stops rest := by
  obtain ⟨tail, rfl⟩ | ⟨c, tail, rfl, -⟩ := h
  · rintro c ⟨⟩
    exact .inr rfl
  · rintro c ⟨⟩
    exact .inl rfl

theorem Closes.stops_spaced {rest : List Char} (h : Closes rest) (items : List Sexp) :
    Stops (spaced items ++ rest) := by
  cases items with
  | nil => exact h.stops
  | cons s items =>
      rintro c ⟨⟩
      exact .inl rfl

theorem Legible.exists_cons {s : Sexp} (h : s.Legible) :
    ∃ c tail, s.chars = c :: tail ∧ c ∉ [')', '\x7d'] := by
  cases h with
  | atom h =>
      obtain ⟨c, tail, htext, hc⟩ := h.exists_cons
      exact ⟨c, tail, htext, by simp_all⟩
  | form h hargs => exact ⟨_, _, rfl, by decide⟩
  | group hitems => exact ⟨_, _, rfl, by decide⟩
  | braces hitems => exact ⟨_, _, rfl, by decide⟩

/-- The end of a list is not the beginning of another item. -/
theorem Closes.ne_spaced {rest : List Char} (h : Closes rest) {s : Sexp} (hs : s.Legible)
    (items : List Sexp) (rest' : List Char) : rest ≠ spaced (s :: items) ++ rest' := by
  obtain ⟨d, tail', hchars, hd⟩ := hs.exists_cons
  rw [spaced, hchars]
  obtain ⟨tail, rfl⟩ | ⟨c, tail, rfl, hc⟩ := h
  · rintro ⟨⟩
  · rintro ⟨⟩
    exact hd hc

mutual

/-- An s-expression is told from what follows. -/
theorem chars_append_inj : ∀ (s t : Sexp) {rest rest' : List Char}, s.Legible → t.Legible →
    Stops rest → Stops rest' → s.chars ++ rest = t.chars ++ rest' → s = t ∧ rest = rest'
  | .atom text, t, rest, rest', hs, ht, hrest, hrest', h => by
      have hroot := ctorIdx_eq_of_chars_eq hs ht h
      revert ht h
      refine Sexp.atom.elim t hroot fun text' ht h => ?_
      cases hs with
      | atom hs =>
          cases ht with
          | atom ht =>
              obtain ⟨rfl, hrests⟩ := hs.append_inj ht hrest hrest' h
              exact ⟨rfl, hrests⟩
  | .form head args, t, rest, rest', hs, ht, hrest, hrest', h => by
      -- The head ends where the first item or the closing parenthesis begins.
      have hroot := ctorIdx_eq_of_chars_eq hs ht h
      revert ht h
      refine Sexp.form.elim t hroot fun head' args' ht h => ?_
      cases hs with
      | form hhead hargs =>
          cases ht with
          | form hhead' hargs' =>
              simp only [chars, List.cons_append, List.append_assoc, List.cons.injEq, true_and,
                List.nil_append] at h
              have hclose := closes_parenthesis rest
              have hclose' := closes_parenthesis rest'
              obtain ⟨rfl, hspaced⟩ :=
                hhead.append_inj hhead' (hclose.stops_spaced args) (hclose'.stops_spaced args') h
              obtain ⟨rfl, hrests⟩ :=
                spaced_append_inj args args' hargs hargs' hclose hclose' hspaced
              exact ⟨rfl, List.tail_eq_of_cons_eq hrests⟩
  | .group items, t, rest, rest', hs, ht, hrest, hrest', h => by
      have hroot := ctorIdx_eq_of_chars_eq hs ht h
      revert ht h
      refine Sexp.group.elim t hroot fun items' ht h => ?_
      cases hs with
      | group hitems =>
          cases ht with
          | group hitems' =>
              simp only [chars, List.cons_append, List.append_assoc, List.cons.injEq, true_and,
                List.nil_append] at h
              obtain ⟨rfl, hrests⟩ := spaced_append_inj items items' hitems hitems'
                (closes_blank (by decide) rest) (closes_blank (by decide) rest') h
              exact ⟨rfl, List.tail_eq_of_cons_eq (List.tail_eq_of_cons_eq hrests)⟩
  | .braces items, t, rest, rest', hs, ht, hrest, hrest', h => by
      have hroot := ctorIdx_eq_of_chars_eq hs ht h
      revert ht h
      refine Sexp.braces.elim t hroot fun items' ht h => ?_
      cases hs with
      | braces hitems =>
          cases ht with
          | braces hitems' =>
              simp only [chars, List.cons_append, List.append_assoc, List.cons.injEq, true_and,
                List.nil_append] at h
              obtain ⟨rfl, hrests⟩ := spaced_append_inj items items' hitems hitems'
                (closes_blank (by decide) rest) (closes_blank (by decide) rest') h
              exact ⟨rfl, List.tail_eq_of_cons_eq (List.tail_eq_of_cons_eq hrests)⟩

/-- A list is told from what closes it. -/
theorem spaced_append_inj : ∀ (xs ys : List Sexp) {rest rest' : List Char},
    (∀ s ∈ xs, s.Legible) → (∀ s ∈ ys, s.Legible) → Closes rest → Closes rest' →
    spaced xs ++ rest = spaced ys ++ rest' → xs = ys ∧ rest = rest'
  | [], [], _, _, _, _, _, _, h => ⟨rfl, h⟩
  | [], y :: ys, _, rest', _, hys, hrest, _, h =>
      (hrest.ne_spaced (hys y List.mem_cons_self) ys rest' h).elim
  | x :: xs, [], rest, _, hxs, _, _, hrest', h =>
      (hrest'.ne_spaced (hxs x List.mem_cons_self) xs rest h.symm).elim
  | x :: xs, y :: ys, rest, rest', hxs, hys, hrest, hrest', h => by
      rw [List.forall_mem_cons] at hxs hys
      simp only [spaced, List.cons_append, List.append_assoc, List.cons.injEq, true_and] at h
      obtain ⟨rfl, hspaced⟩ := chars_append_inj x y hxs.1 hys.1 (hrest.stops_spaced xs)
        (hrest'.stops_spaced ys) h
      obtain ⟨rfl, hrests⟩ := spaced_append_inj xs ys hxs.2 hys.2 hrest hrest' hspaced
      exact ⟨rfl, hrests⟩

end

/-- An s-expression is told by its text. -/
theorem render_injective {s t : Sexp} (hs : s.Legible) (ht : t.Legible) (h : s.render = t.render) :
    s = t := by
  have hstop : Stops [] := fun c hc => nomatch hc
  refine (chars_append_inj s t hs ht hstop hstop ?_).1
  rw [String.ofList_inj.1 h]

end Breakpoint.Sexp
