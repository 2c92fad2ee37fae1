import Mathlib
import Breakpoint.Tree.Render

/-!
Atoms. The texts that stand on their own in an s-expression can be read back. A bare atom goes on up
to a blank or a bracket; a quoted one up to its closing quote, whatever is escaped in between. Of
the things that are written as atoms, types, classes, whole constants and marked names are told by
their texts.
-/

namespace Breakpoint

theorem takeWhile_append_stop {p : Char → Bool} {text rest : List Char} (h : ∀ c ∈ text, p c)
    (hrest : ∀ c ∈ rest.head?, p c = false) : (text ++ rest).takeWhile p = text := by
  rw [List.takeWhile_append_of_pos h]
  cases rest with
  | nil => simp
  | cons c rest => simp [hrest c rfl]

/-- Texts of characters with a property are told from what follows, if that begins without the
property. -/
theorem append_inj_of_stop {p : Char → Bool} {a b rest rest' : List Char} (ha : ∀ c ∈ a, p c)
    (hb : ∀ c ∈ b, p c) (hrest : ∀ c ∈ rest.head?, p c = false)
    (hrest' : ∀ c ∈ rest'.head?, p c = false) (h : a ++ rest = b ++ rest') :
    a = b ∧ rest = rest' := by
  have hab : a = b := by
    rw [← takeWhile_append_stop ha hrest, h, takeWhile_append_stop hb hrest']
  subst hab
  exact ⟨rfl, List.append_cancel_left h⟩

namespace Text

/-- The value of a hexadecimal digit. -/
def hexDigitValue (c : Char) : Nat := "0123456789abcdef".toList.idxOf c

/-- The number that hexadecimal digits stand for, the most significant first. -/
def hexNumber (digits : List Char) : Nat := digits.foldl (fun n c => 16 * n + hexDigitValue c) 0

theorem hexDigitValue_digitChar : ∀ d < 16, hexDigitValue (Nat.digitChar d) = d := by decide

theorem hexNumber_append_digitChar (digits : List Char) {d : Nat} (h : d < 16) :
    hexNumber (digits ++ [Nat.digitChar d]) = 16 * hexNumber digits + d := by
  simp [hexNumber, List.foldl_append, hexDigitValue_digitChar d h]

theorem hexNumber_toDigits (n : Nat) : hexNumber (Nat.toDigits 16 n) = n := by
  induction n using Nat.strongRecOn with
  | ind n ih =>
      rw [Nat.toDigits_eq_if (by decide)]
      split
      · rename_i hn
        exact (hexNumber_append_digitChar [] hn).trans (Nat.zero_add n)
      · rw [hexNumber_append_digitChar _ (Nat.mod_lt n (by decide)), ih (n / 16) (by omega)]
        omega

theorem hexNumber_hexDigits (width n : Nat) : hexNumber (hexDigits width n) = n % 16 ^ width := by
  induction width generalizing n with
  | zero => exact (Nat.mod_one n).symm
  | succ width ih =>
      rw [hexDigits, hexNumber_append_digitChar _ (Nat.mod_lt n (by decide)), ih, Nat.pow_succ',
        Nat.mod_mul, Nat.add_comm]

theorem forall_mem_toDigits {p : Char → Prop} (h : ∀ d < 16, p (Nat.digitChar d)) (n : Nat) :
    ∀ c ∈ Nat.toDigits 16 n, p c := by
  induction n using Nat.strongRecOn with
  | ind n ih =>
      rw [Nat.toDigits_eq_if (by decide)]
      split
      · rename_i hn
        rw [List.forall_mem_singleton]
        exact h n hn
      · rw [List.forall_mem_append, List.forall_mem_singleton]
        exact ⟨ih (n / 16) (by omega), h (n % 16) (Nat.mod_lt n (by decide))⟩

theorem forall_mem_hexDigits {p : Char → Prop} (h : ∀ d < 16, p (Nat.digitChar d)) (width n : Nat) :
    ∀ c ∈ hexDigits width n, p c := by
  induction width generalizing n with
  | zero => exact fun c hc => nomatch hc
  | succ width ih =>
      rw [hexDigits, List.forall_mem_append, List.forall_mem_singleton]
      exact ⟨ih (n / 16), h (n % 16) (Nat.mod_lt n (by decide))⟩

/-- The character that a letter after a backslash stands for. -/
def letterMeaning : Char → Char
  | 't' => '\t'
  | 'r' => '\r'
  | 'n' => '\n'
  | '0' => '\x00'
  | c => c

/-- Reads one character of a quoted text, and gives what comes after it. -/
def readChar : List Char → Option (Char × List Char)
  | [] => none
  | '\\' :: 'u' :: '\x7b' :: rest =>
    some (Char.ofNat (hexNumber (rest.takeWhile (· ≠ '\x7d'))), (rest.dropWhile (· ≠ '\x7d')).tail)
  | '\\' :: c :: rest => some (letterMeaning c, rest)
  | c :: rest => some (c, rest)

theorem readChar_codePointEscape (c : Char) (rest : List Char) :
    readChar (codePointEscape c ++ rest) = some (c, rest) := by
  have hdigits : ∀ d ∈ Nat.toDigits 16 c.toNat, decide (d ≠ '\x7d') = true :=
    forall_mem_toDigits (by decide) _
  simp only [codePointEscape, List.cons_append, List.nil_append, List.append_assoc, readChar]
  rw [List.takeWhile_append_of_pos hdigits, List.dropWhile_append_of_pos hdigits]
  simp [hexNumber_toDigits]

theorem readChar_self {c : Char} (h : c ≠ '\\') (rest : List Char) :
    readChar (c :: rest) = some (c, rest) := by
  unfold readChar
  split <;> simp_all

theorem readChar_sharedEscape {c : Char} {text : List Char} (h : sharedEscape? c = some text)
    (rest : List Char) : readChar (text ++ rest) = some (c, rest) := by
  unfold sharedEscape? at h
  split at h <;> first | (cases h; rfl) | cases h

theorem ne_backslash_of_sharedEscape {c : Char} (h : sharedEscape? c = none) : c ≠ '\\' := by
  rintro rfl
  cases h

theorem readChar_inSingleQuotes (c : Char) (rest : List Char) :
    readChar (inSingleQuotes c ++ rest) = some (c, rest) := by
  unfold inSingleQuotes
  split
  · rename_i hshared
    exact readChar_sharedEscape hshared rest
  · rename_i hshared
    split
    · rename_i hquote
      subst hquote
      rfl
    · split
      · exact readChar_self (ne_backslash_of_sharedEscape hshared) rest
      · exact readChar_codePointEscape c rest

theorem readChar_inDoubleQuotes (c : Char) (rest : List Char) :
    readChar (inDoubleQuotes c ++ rest) = some (c, rest) := by
  unfold inDoubleQuotes
  split
  · rename_i hshared
    exact readChar_sharedEscape hshared rest
  · rename_i hshared
    split
    · rename_i hnul
      subst hnul
      rfl
    · split
      · exact readChar_codePointEscape c rest
      · exact readChar_self (ne_backslash_of_sharedEscape hshared) rest

/-- No character begins with the quote that closes a string. -/
theorem inDoubleQuotes_append_ne (c : Char) (rest rest' : List Char) :
    inDoubleQuotes c ++ rest ≠ '\x22' :: rest' := by
  intro h
  have hread := readChar_inDoubleQuotes c rest
  rw [h, readChar_self (by decide)] at hread
  obtain rfl : '\x22' = c := congrArg Prod.fst (Option.some.inj hread)
  cases h

theorem inSingleQuotes_append_inj {a b : Char} {rest rest' : List Char}
    (h : inSingleQuotes a ++ rest = inSingleQuotes b ++ rest') : a = b ∧ rest = rest' := by
  have hread := readChar_inSingleQuotes a rest
  rw [h, readChar_inSingleQuotes] at hread
  exact Prod.mk.inj (Option.some.inj hread.symm)

theorem inDoubleQuotes_append_inj {a b : List Char} {rest rest' : List Char}
    (h : a.flatMap inDoubleQuotes ++ '\x22' :: rest = b.flatMap inDoubleQuotes ++ '\x22' :: rest') :
    a = b ∧ rest = rest' := by
  induction a generalizing b with
  | nil =>
      cases b with
      | nil => exact ⟨rfl, List.tail_eq_of_cons_eq h⟩
      | cons d b =>
          rw [List.flatMap_cons, List.append_assoc] at h
          exact (inDoubleQuotes_append_ne d _ _ h.symm).elim
  | cons c a ih =>
      rw [List.flatMap_cons, List.append_assoc] at h
      cases b with
      | nil => exact (inDoubleQuotes_append_ne c _ _ h).elim
      | cons d b =>
          rw [List.flatMap_cons, List.append_assoc] at h
          have hread := readChar_inDoubleQuotes c (a.flatMap inDoubleQuotes ++ '\x22' :: rest)
          rw [h, readChar_inDoubleQuotes] at hread
          obtain ⟨rfl, htail⟩ := Prod.mk.inj (Option.some.inj hread.symm)
          obtain ⟨rfl, hrest⟩ := ih htail
          exact ⟨rfl, hrest⟩

theorem quoteChar_injective {a b : Char} (h : quoteChar a = quoteChar b) : a = b :=
  (inSingleQuotes_append_inj (List.tail_eq_of_cons_eq (String.ofList_inj.1 h))).1

theorem quoteString_injective {a b : String} (h : quoteString a = quoteString b) : a = b :=
  String.toList_inj.1
    (inDoubleQuotes_append_inj (List.tail_eq_of_cons_eq (String.ofList_inj.1 h))).1

end Text

namespace Sexp

/-- The characters of bare atoms and of heads: neither blanks nor brackets nor quotes. -/
def isPlain (c : Char) : Bool :=
  c ∉ [' ', '(', ')', '\x7b', '\x7d', '\x22', '\x27']

/-- A text of plain characters. -/
def Bare (text : String) : Prop := text.toList ≠ [] ∧ ∀ c ∈ text.toList, isPlain c

instance (text : String) : Decidable (Bare text) :=
  decidable_of_iff (!text.toList.isEmpty && text.toList.all isPlain) (by simp [Bare])

/-- The texts that can be read as one atom. -/
inductive Token : String → Prop where
  | bare {text : String} (h : Bare text) : Token text
  | char (c : Char) : Token (Text.quoteChar c)
  | string (s : String) : Token (Text.quoteString s)

/-- What may come after an atom: nothing, a blank or a closing parenthesis. -/
def Stops (rest : List Char) : Prop := ∀ c ∈ rest.head?, c = ' ' ∨ c = ')'

theorem Bare.append {a b : String} (ha : Bare a) (hb : ∀ c ∈ b.toList, isPlain c) :
    Bare (a ++ b) := by
  rw [Bare, String.toList_append, List.forall_mem_append]
  exact ⟨fun h => ha.1 (List.append_eq_nil_iff.1 h).1, ha.2, hb⟩

/-- A bare text is told from what follows. -/
theorem Bare.append_inj {a b : String} {rest rest' : List Char} (ha : Bare a) (hb : Bare b)
    (hrest : Stops rest) (hrest' : Stops rest') (h : a.toList ++ rest = b.toList ++ rest') :
    a = b ∧ rest = rest' := by
  have hplain (c : Char) (hc : isPlain c) : decide (c ≠ ' ' ∧ c ≠ ')') = true := by
    revert hc
    simp +contextual [isPlain]
  have hstop {r : List Char} (hr : Stops r) :
      ∀ c ∈ r.head?, decide (c ≠ ' ' ∧ c ≠ ')') = false := by
    intro c hc
    obtain rfl | rfl := hr c hc <;> rfl
  obtain ⟨hab, hrests⟩ := append_inj_of_stop (fun c hc => hplain c (ha.2 c hc))
    (fun c hc => hplain c (hb.2 c hc)) (hstop hrest) (hstop hrest') h
  exact ⟨String.toList_inj.1 hab, hrests⟩

theorem Bare.exists_cons {text : String} (h : Bare text) :
    ∃ c tail, text.toList = c :: tail ∧ isPlain c := by
  obtain ⟨c, tail, htext⟩ := List.exists_cons_of_ne_nil h.1
  exact ⟨c, tail, htext, h.2 c (htext ▸ List.mem_cons_self)⟩

/-- A bare text does not begin with a quote or a bracket. -/
theorem Bare.append_ne {text : String} (h : Bare text) {c : Char} (hc : isPlain c = false)
    (rest tail : List Char) : text.toList ++ rest ≠ c :: tail := by
  obtain ⟨d, _, htext, hd⟩ := h.exists_cons
  rw [htext]
  rintro ⟨⟩
  rw [hc] at hd
  cases hd

theorem toList_quoteChar (c : Char) :
    (Text.quoteChar c).toList = '\x27' :: (Text.inSingleQuotes c ++ ['\x27']) :=
  String.toList_ofList

theorem toList_quoteString (s : String) :
    (Text.quoteString s).toList = '\x22' :: (s.toList.flatMap Text.inDoubleQuotes ++ ['\x22']) :=
  String.toList_ofList

/-- A token is told from what follows. -/
theorem Token.append_inj {a b : String} {rest rest' : List Char} (ha : Token a) (hb : Token b)
    (hrest : Stops rest) (hrest' : Stops rest') (h : a.toList ++ rest = b.toList ++ rest') :
    a = b ∧ rest = rest' := by
  cases ha with
  | bare ha =>
      cases hb with
      | bare hb => exact ha.append_inj hb hrest hrest' h
      | char d =>
          rw [toList_quoteChar] at h
          exact (ha.append_ne rfl _ _ h).elim
      | string t =>
          rw [toList_quoteString] at h
          exact (ha.append_ne rfl _ _ h).elim
  | char c =>
      rw [toList_quoteChar] at h
      cases hb with
      | bare hb => exact (hb.append_ne rfl _ _ h.symm).elim
      | char d =>
          rw [toList_quoteChar, List.cons_append, List.cons_append, List.append_assoc,
            List.append_assoc] at h
          obtain ⟨rfl, hclosed⟩ := Text.inSingleQuotes_append_inj (List.tail_eq_of_cons_eq h)
          exact ⟨rfl, List.append_cancel_left hclosed⟩
      | string t =>
          rw [toList_quoteString] at h
          cases h
  | string s =>
      rw [toList_quoteString] at h
      cases hb with
      | bare hb => exact (hb.append_ne rfl _ _ h.symm).elim
      | char d =>
          rw [toList_quoteChar] at h
          cases h
      | string t =>
          rw [toList_quoteString, List.cons_append, List.cons_append, List.append_assoc,
            List.append_assoc] at h
          obtain ⟨hst, hrests⟩ := Text.inDoubleQuotes_append_inj (List.tail_eq_of_cons_eq h)
          exact ⟨congrArg Text.quoteString (String.toList_inj.1 hst), hrests⟩

end Sexp

open Sexp (isPlain Bare Token)

theorem isPlain_of_isAlphanum {c : Char} (h : c.isAlphanum) : isPlain c := by
  rw [isPlain, decide_eq_true_iff]
  simp only [List.mem_cons, List.not_mem_nil, or_false]
  rintro (rfl | rfl | rfl | rfl | rfl | rfl | rfl) <;> cases h

theorem isPlain_of_isDigit {c : Char} (h : c.isDigit) : isPlain c :=
  isPlain_of_isAlphanum (by rw [Char.isAlphanum, h, Bool.or_true])

theorem isDigit_of_mem_toString {n : Nat} {c : Char} (h : c ∈ (toString n).toList) :
    c.isDigit := by
  rw [Nat.toString_eq_repr, Nat.toList_repr] at h
  exact Nat.isDigit_of_mem_toDigits (by decide) (by decide) h

theorem bare_toString (n : Nat) : Bare (toString n) := by
  refine ⟨?_, fun c hc => isPlain_of_isDigit (isDigit_of_mem_toString hc)⟩
  rw [Nat.toString_eq_repr, Nat.toList_repr]
  exact Nat.toDigits_ne_nil

/-- A whole number begins with a digit or a sign, and goes on with digits. -/
theorem exists_toString_int (n : Int) : ∃ c tail, (toString n).toList = c :: tail ∧
    (c.isDigit ∨ c = '-') ∧ ∀ d ∈ tail, d.isDigit := by
  have hnat (m : Nat) :
      ∃ c tail, m.repr.toList = c :: tail ∧ c.isDigit ∧ ∀ d ∈ tail, d.isDigit := by
    obtain ⟨c, tail, hm⟩ := List.exists_cons_of_ne_nil (bare_toString m).1
    have hdigits : ∀ d ∈ c :: tail, d.isDigit := fun d hd => isDigit_of_mem_toString (hm ▸ hd)
    exact ⟨c, tail, hm, List.forall_mem_cons.1 hdigits⟩
  rw [Int.toString_eq_repr, Int.repr_eq_if]
  split
  · obtain ⟨c, tail, htext, hc, htail⟩ := hnat n.toNat
    exact ⟨c, tail, htext, .inl hc, htail⟩
  · obtain ⟨c, tail, htext, hc, htail⟩ := hnat (-n).toNat
    refine ⟨'-', c :: tail, ?_, .inr rfl, List.forall_mem_cons.2 ⟨hc, htail⟩⟩
    rw [String.toList_append, htext]
    rfl

/-! ### Classes and types -/

theorem ClassId.toList_render (c : ClassId) :
    c.render.toList = '0' :: 'x' :: hexDigits 16 c.code.toNat := by
  rw [render, String.toList_append, String.toList_ofList, String.toList_ofList, List.cons_append,
    List.singleton_append]

theorem ClassId.render_injective {a b : ClassId} (h : a.render = b.render) : a = b := by
  have hdigits : hexDigits 16 a.code.toNat = hexDigits 16 b.code.toNat := by
    have htext := congrArg String.toList h
    rw [toList_render, toList_render] at htext
    exact List.tail_eq_of_cons_eq (List.tail_eq_of_cons_eq htext)
  have hfits (c : ClassId) : c.code.toNat < 16 ^ 16 := c.code.toNat_lt
  have hcode : a.code.toNat = b.code.toNat := by
    have hnumber := congrArg Text.hexNumber hdigits
    rwa [Text.hexNumber_hexDigits, Text.hexNumber_hexDigits, Nat.mod_eq_of_lt (hfits a),
      Nat.mod_eq_of_lt (hfits b)] at hnumber
  cases a
  cases b
  exact congrArg mk (UInt64.toNat_inj.1 hcode)

theorem ClassId.isAlphanum_of_mem_render (c : ClassId) :
    ∀ d ∈ c.render.toList, d.isAlphanum := by
  rw [toList_render, List.forall_mem_cons, List.forall_mem_cons]
  exact ⟨rfl, rfl, Text.forall_mem_hexDigits (by decide) 16 c.code.toNat⟩

theorem ClassId.bare_render (c : ClassId) : Bare c.render := by
  refine ⟨?_, fun d hd => isPlain_of_isAlphanum (c.isAlphanum_of_mem_render d hd)⟩
  rw [toList_render]
  exact List.cons_ne_nil _ _

namespace Ty

/-- The types whose arrays have a dimension. -/
def isProper : Ty → Bool
  | array _ dims => dims != 0
  | _ => true

/-- What is left of a type without its brackets. -/
def stem : Ty → Ty
  | array element _ => element.toTy
  | t => t

/-- The number of dimensions of a type. -/
def depth : Ty → UInt8
  | array _ dims => dims
  | _ => 0

/-- The types that are written as words. -/
def words : List Ty := void :: null :: Kind.all.map prim

theorem stem_cases (t : Ty) : t.stem ∈ words ∨ ∃ c, t.stem = ofClass c := by
  have hprim (kind : Kind) : prim kind ∈ words := by cases kind <;> decide
  cases t with
  | void => exact .inl (by decide)
  | null => exact .inl (by decide)
  | prim kind => exact .inl (hprim kind)
  | ofClass c => exact .inr ⟨c, rfl⟩
  | array element dims =>
      cases element with
      | prim kind => exact .inl (hprim kind)
      | ofClass c => exact .inr ⟨c, rfl⟩

theorem toList_render (t : Ty) : t.render.toList =
    t.stem.render.toList ++ (List.replicate t.depth.toNat ['[', ']']).flatten := by
  cases t with
  | array element dims =>
      cases element <;> exact String.toList_append.trans (congrArg _ String.toList_ofList)
  | _ => exact (List.append_nil _).symm

theorem isAlphanum_of_mem_stem (t : Ty) : ∀ c ∈ t.stem.render.toList, c.isAlphanum := by
  obtain hword | ⟨c, hclass⟩ := t.stem_cases
  · have hwords : ∀ t ∈ words, t.render.toList.all Char.isAlphanum := by decide
    exact List.all_eq_true.1 (hwords t.stem hword)
  · rw [hclass]
    exact c.isAlphanum_of_mem_render

theorem stem_eq_of_render_eq {t u : Ty} (h : t.stem.render = u.stem.render) : t.stem = u.stem := by
  -- The words begin with a letter, and a class with a digit.
  have hletter : ∀ a ∈ words, a.render.toList.head? ≠ some '0' := by decide
  have hclass {a b : Ty} {c : ClassId} (ha : a ∈ words) (hb : b = ofClass c) :
      a.render ≠ b.render := by
    intro h
    refine hletter a ha ?_
    rw [h, hb]
    exact congrArg List.head? c.toList_render
  obtain ht | ⟨c, ht⟩ := t.stem_cases
  · obtain hu | ⟨d, hu⟩ := u.stem_cases
    · have hwords : ∀ a ∈ words, ∀ b ∈ words, a.render = b.render → a = b := by decide
      exact hwords t.stem ht u.stem hu h
    · exact (hclass ht hu h).elim
  · obtain hu | ⟨d, hu⟩ := u.stem_cases
    · exact (hclass hu ht h.symm).elim
    · rw [ht, hu] at h
      rw [ht, hu, ClassId.render_injective h]

theorem eq_of_stem_eq {t u : Ty} (ht : t.isProper) (hu : u.isProper) (hstem : t.stem = u.stem)
    (hdepth : t.depth = u.depth) : t = u := by
  have helement {a b : Element} (h : a.toTy = b.toTy) : a = b := by
    cases a <;> cases b <;> cases h <;> rfl
  cases t with
  | array element dims =>
      cases u with
      | array element' dims' => rw [helement hstem, show dims = dims' from hdepth]
      | _ => exact absurd hdepth (bne_iff_ne.1 ht)
  | _ =>
      cases u with
      | array element' dims' => exact absurd hdepth.symm (bne_iff_ne.1 hu)
      | _ => exact hstem

/-- A type is told by its text. -/
theorem render_injective {t u : Ty} (ht : t.isProper) (hu : u.isProper)
    (h : t.render = u.render) : t = u := by
  have htext := congrArg String.toList h
  rw [t.toList_render, u.toList_render] at htext
  have hstop (n : Nat) : ∀ c ∈ ((List.replicate n ['[', ']']).flatten).head?,
      decide (c ≠ '[') = false := by
    cases n with
    | zero => exact fun c hc => nomatch hc
    | succ n =>
        intro c hc
        cases hc
        rfl
  have hstem (t : Ty) : ∀ c ∈ t.stem.render.toList, decide (c ≠ '[') = true := by
    intro c hc
    rw [decide_eq_true_iff]
    rintro rfl
    cases t.isAlphanum_of_mem_stem _ hc
  obtain ⟨hstems, hbrackets⟩ := append_inj_of_stop (hstem t) (hstem u) (hstop _) (hstop _) htext
  have hlength := congrArg List.length hbrackets
  have hdepth : t.depth = u.depth := by
    rw [← UInt8.toNat_inj]
    simpa using hlength
  exact eq_of_stem_eq ht hu (stem_eq_of_render_eq (String.toList_inj.1 hstems)) hdepth

theorem bare_render (t : Ty) : Bare t.render := by
  have hbrackets : ∀ c ∈ (List.replicate t.depth.toNat ['[', ']']).flatten, isPlain c := by
    simp only [List.mem_flatten, List.mem_replicate]
    rintro c ⟨_, ⟨-, rfl⟩, hc⟩
    exact List.all_eq_true.1 (by decide : ['[', ']'].all isPlain) c hc
  have hne : t.stem.render.toList ≠ [] := by
    obtain hword | ⟨c, hclass⟩ := t.stem_cases
    · have hwords : ∀ t ∈ words, Bare t.render := by decide
      exact (hwords t.stem hword).1
    · rw [hclass]
      exact c.bare_render.1
  rw [Bare, t.toList_render, List.forall_mem_append]
  exact ⟨fun h => hne (List.append_eq_nil_iff.1 h).1,
    fun c hc => isPlain_of_isAlphanum (t.isAlphanum_of_mem_stem c hc), hbrackets⟩

end Ty

theorem Kind.keyword_injective {a b : Kind} (h : a.keyword = b.keyword) : a = b :=
  Ty.prim.inj (Ty.render_injective rfl rfl h)

theorem Kind.bare_keyword (kind : Kind) : Bare kind.keyword := (Ty.prim kind).bare_render

namespace Constant

/-- All constants but the floating-point ones. -/
def isWhole : Constant → Bool
  | float _ | double _ => false
  | _ => true

/-- The constructor of the whole constant that a text spells, by its number. Words apart, the first
character tells whether there is one, and the letter at the end tells the two kinds of number. -/
def spelled? (text : List Char) : Option Nat :=
  match text.head? with
  | none => none
  | some '\x22' => some 7
  | some '\x27' => some 2
  | some c =>
    if c.isDigit ∨ c = '-' then some (if 'L' ∈ text then 4 else 3)
    else if text = "null".toList then some 0
    else if text = "true".toList ∨ text = "false".toList then some 1
    else none

/-- The words for constants have letters only. -/
theorem isAlpha_of_mem_words {word : String} (h : word ∈ ["null", "true", "false"]) :
    ∀ c ∈ word.toList, c.isAlpha := by
  have hletters : ∀ word ∈ ["null", "true", "false"], word.toList.all Char.isAlpha := by decide
  exact List.all_eq_true.1 (hletters word h)

theorem spelled?_number {c : Char} {tail : List Char} (hc : c.isDigit ∨ c = '-') :
    spelled? (c :: tail) = some (if 'L' ∈ c :: tail then 4 else 3) := by
  unfold spelled?
  rw [List.head?_cons]
  split
  · rename_i h
    cases h
  · rename_i h
    cases h
    obtain h | h := hc <;> cases h
  · rename_i h
    cases h
    obtain h | h := hc <;> cases h
  · rename_i h
    cases h
    rw [if_pos hc]

theorem spelled?_eq_none {text : String} {c : Char} {tail : List Char}
    (htext : text.toList = c :: tail) (hc : isPlain c) (hdigit : c.isDigit = false)
    (hminus : c ≠ '-') (hword : text ∉ ["null", "true", "false"]) :
    spelled? text.toList = none := by
  simp only [List.mem_cons, List.not_mem_nil, or_false, not_or] at hword
  obtain ⟨hnull, htrue, hfalse⟩ := hword
  unfold spelled?
  rw [htext, List.head?_cons, ← htext]
  split
  · rfl
  · rename_i h
    cases h
    cases hc
  · rename_i h
    cases h
    cases hc
  · rename_i h
    cases h
    rw [if_neg (by simp [hdigit, hminus]), if_neg (mt String.toList_inj.1 hnull),
      if_neg (not_or.2 ⟨mt String.toList_inj.1 htrue, mt String.toList_inj.1 hfalse⟩)]

theorem spelled?_render {value : Constant} (h : value.isWhole) :
    spelled? value.render.toList = some value.ctorIdx := by
  cases value with
  | null => rfl
  | bool value => cases value <;> rfl
  | char value =>
      rw [render, Sexp.toList_quoteChar]
      rfl
  | int value =>
      obtain ⟨c, tail, htext, hc, htail⟩ := exists_toString_int value.toInt
      have hL : 'L' ∉ c :: tail := by
        intro hL
        obtain h | h := List.mem_cons.1 hL
        · subst h
          obtain h | h := hc <;> cases h
        · cases htail _ h
      rw [render, htext, spelled?_number hc, if_neg hL]
      rfl
  | long value =>
      obtain ⟨c, tail, htext, hc, -⟩ := exists_toString_int value.toInt
      rw [render, String.toList_append, htext, List.cons_append, spelled?_number hc,
        if_pos (by simp)]
      rfl
  | string value =>
      rw [render, Sexp.toList_quoteString]
      rfl
  | float _ => cases h
  | double _ => cases h

/-- A whole constant is told by its text. -/
theorem render_injective {a b : Constant} (ha : a.isWhole) (hb : b.isWhole)
    (h : a.render = b.render) : a = b := by
  have hroot : b.ctorIdx = a.ctorIdx :=
    Option.some.inj (by rw [← spelled?_render ha, ← spelled?_render hb, h])
  revert h
  cases a with
  | null => exact Constant.null.elim b hroot fun _ => rfl
  | bool value =>
      refine Constant.bool.elim b hroot fun value' h => ?_
      cases value <;> cases value' <;> first | rfl | exact absurd h (by decide)
  | char value =>
      exact Constant.char.elim b hroot fun _ h => congrArg char (Text.quoteChar_injective h)
  | int value =>
      exact Constant.int.elim b hroot fun _ h => congrArg int (Int32.toInt_inj.1 (Int.repr_inj.1 h))
  | long value =>
      refine Constant.long.elim b hroot fun _ h => congrArg long (Int64.toInt_inj.1 ?_)
      exact Int.repr_inj.1 ((String.append_left_inj "L").1 h)
  | string value =>
      exact Constant.string.elim b hroot fun _ h => congrArg string (Text.quoteString_injective h)
  | float _ => cases ha
  | double _ => cases ha

theorem token_render {value : Constant} (h : value.isWhole) : Token value.render := by
  have hint (n : Int) : Bare (toString n) := by
    obtain ⟨c, tail, htext, hc, htail⟩ := exists_toString_int n
    rw [Bare, htext, List.forall_mem_cons]
    refine ⟨List.cons_ne_nil c tail, ?_, fun d hd => isPlain_of_isDigit (htail d hd)⟩
    obtain h | rfl := hc
    · exact isPlain_of_isDigit h
    · rfl
  cases value with
  | null => exact .bare (by decide)
  | bool value => cases value <;> exact .bare (by decide)
  | char value => exact .char value
  | int value => exact .bare (hint _)
  | long value => exact .bare ((hint _).append (List.all_eq_true.1 (by decide)))
  | string value => exact .string value
  | float _ => cases h
  | double _ => cases h

end Constant

/-- The names and labels that are told from everything else in a text: none of their characters is
a blank, a bracket, a quote or a mark, they do not begin like a number, and they are not words for
constants. -/
def isWord (name : String) : Bool :=
  name.toList.head?.any (fun c => !c.isDigit && c != '-') &&
    name.toList.all (fun c => isPlain c && c ∉ ['#', '?', '@']) &&
    name ∉ ["null", "true", "false"]

section Words

variable {name : String} (h : isWord name)
include h

theorem exists_cons_of_isWord :
    ∃ c tail, name.toList = c :: tail ∧ c.isDigit = false ∧ c ≠ '-' := by
  simp only [isWord, Bool.and_eq_true] at h
  cases hname : name.toList with
  | nil =>
      rw [hname] at h
      cases h.1.1
  | cons c tail =>
      have hc := h.1.1
      rw [hname] at hc
      exact ⟨c, tail, rfl, by simpa using hc⟩

theorem isPlain_of_isWord : ∀ c ∈ name.toList, isPlain c ∧ c ≠ '#' ∧ c ≠ '?' ∧ c ≠ '@' := by
  simp only [isWord, Bool.and_eq_true, List.all_eq_true] at h
  intro c hc
  simpa using h.1.2 c hc

theorem bare_of_isWord : Bare name := by
  obtain ⟨c, tail, hname, -⟩ := exists_cons_of_isWord h
  exact ⟨hname ▸ List.cons_ne_nil c tail, fun c hc => (isPlain_of_isWord h c hc).1⟩

end Words

namespace Slot

/-- The mark behind the name of a local. -/
def suffix : Slot → String
  | frame | fragment => ""
  | parameter index => "#" ++ toString index.toNat
  | deferred => "?"

/-- What a text shows of a slot: variables of the frame and of the compiled code look alike. -/
def shown : Slot → Slot
  | fragment => frame
  | slot => slot

theorem mark_eq (name : String) (slot : Slot) : slot.mark name = name ++ slot.suffix := by
  cases slot with
  | parameter index => exact String.append_assoc
  | deferred => rfl
  | _ => exact String.append_empty.symm

theorem head?_suffix (slot : Slot) : slot.suffix.toList.head? = match slot with
    | frame | fragment => none
    | parameter _ => some '#'
    | deferred => some '?' := by
  cases slot with
  | parameter index =>
      rw [suffix, String.toList_append]
      rfl
  | _ => rfl

/-- A mark begins with a character that no name has. -/
theorem suffix_stops (slot : Slot) :
    ∀ c ∈ slot.suffix.toList.head?, decide (c ≠ '#' ∧ c ≠ '?') = false := by
  rw [head?_suffix]
  cases slot <;> simp

theorem shown_eq_of_suffix_eq {a b : Slot} (h : a.suffix = b.suffix) : a.shown = b.shown := by
  have hhead := congrArg (fun text => text.toList.head?) h
  rw [head?_suffix, head?_suffix] at hhead
  cases a <;> cases b
  case parameter.parameter i j =>
    have hindex : toString i.toNat = toString j.toNat := (String.append_right_inj "#").1 h
    exact congrArg (fun index => (parameter index).shown)
      (UInt32.toNat_inj.1 (Nat.repr_inj.1 hindex))
  all_goals first | rfl | cases hhead

/-- A marked name is told by its text, up to what the text does not show of the slot. -/
theorem mark_inj {a b : Slot} {n m : String} (hn : isWord n) (hm : isWord m)
    (h : a.mark n = b.mark m) : n = m ∧ a.shown = b.shown := by
  rw [mark_eq, mark_eq] at h
  have htext := congrArg String.toList h
  rw [String.toList_append, String.toList_append] at htext
  have hname {n : String} (hn : isWord n) :
      ∀ c ∈ n.toList, decide (c ≠ '#' ∧ c ≠ '?') = true := by
    intro c hc
    obtain ⟨-, hhash, hquestion, -⟩ := isPlain_of_isWord hn c hc
    exact decide_eq_true ⟨hhash, hquestion⟩
  obtain ⟨hnames, hsuffixes⟩ :=
    append_inj_of_stop (hname hn) (hname hm) a.suffix_stops b.suffix_stops htext
  exact ⟨String.toList_inj.1 hnames, shown_eq_of_suffix_eq (String.toList_inj.1 hsuffixes)⟩

theorem bare_mark {name : String} (h : isWord name) (slot : Slot) : Bare (slot.mark name) := by
  rw [mark_eq]
  refine (bare_of_isWord h).append ?_
  cases slot with
  | parameter index =>
      rw [suffix, String.toList_append, List.forall_mem_append]
      exact ⟨List.all_eq_true.1 (by decide), (bare_toString index.toNat).2⟩
  | _ => exact List.all_eq_true.1 (by decide)

theorem mark_not_mem {name : String} (h : isWord name) (slot : Slot) :
    slot.mark name ∉ ["null", "true", "false"] := by
  intro hmem
  rw [mark_eq] at hmem
  cases hsuffix : slot.suffix.toList with
  | nil =>
      rw [String.toList_eq_nil_iff.1 hsuffix, String.append_empty] at hmem
      simp only [isWord, Bool.and_eq_true, decide_eq_true_eq] at h
      exact h.2 hmem
  | cons c tail =>
      have hc : c.isAlpha := by
        refine Constant.isAlpha_of_mem_words hmem c ?_
        rw [String.toList_append, hsuffix]
        exact List.mem_append_right _ List.mem_cons_self
      have hhead := slot.head?_suffix
      rw [hsuffix, List.head?_cons] at hhead
      cases slot <;> cases hhead <;> cases hc

/-- No marked name spells a constant. -/
theorem spelled?_mark {name : String} (h : isWord name) (slot : Slot) :
    Constant.spelled? (slot.mark name).toList = none := by
  obtain ⟨c, tail, hname, hdigit, hminus⟩ := exists_cons_of_isWord h
  have htext : (slot.mark name).toList = c :: (tail ++ slot.suffix.toList) := by
    rw [mark_eq, String.toList_append, hname, List.cons_append]
  have hc : isPlain c := (isPlain_of_isWord h c (hname ▸ List.mem_cons_self)).1
  exact Constant.spelled?_eq_none htext hc hdigit hminus (mark_not_mem h slot)

end Slot

end Breakpoint
