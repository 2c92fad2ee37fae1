import Breakpoint.Proofs.Spelling
import Breakpoint.Expr.Same
import Breakpoint.Tree.Same

/-!
Equal sources. Two expressions may be equal without being identical, since a zero equals the zero of
the other sign. That difference is one of spelling: in the spelling that writes every zero without a
sign, equal expressions are identical, and trees that are identical in that spelling are equal. So
equal expressions compile to equal trees, or are refused for the same cause at the same place.
-/

namespace Breakpoint

namespace Decimal.Format

variable (f : Format) {a b : Nat}

theorem isNaN_of_isZero (h : f.isZero a) : f.isNaN a = false := by
  unfold isZero at h
  unfold isNaN
  split at h
  · rename_i hdecode
    rw [hdecode]
    rfl
  · cases h

theorem orderedEq_self (a : Nat) : f.orderedEq a a := by
  cases hnan : f.isNaN a <;> simp [orderedEq, numericEq, hnan]

theorem orderedEq_of_isZero (ha : f.isZero a) (hb : f.isZero b) : f.orderedEq a b := by
  simp [orderedEq, numericEq, f.isNaN_of_isZero ha, f.isNaN_of_isZero hb, ha, hb]

/-- Numbers are equal if their bit patterns are, or if both are zeros. -/
theorem eq_or_isZero_of_numericEq (h : f.numericEq a b) : a = b ∨ f.isZero a ∧ f.isZero b := by
  simp only [numericEq, Bool.and_eq_true, Bool.or_eq_true, beq_iff_eq] at h
  exact h.2

end Decimal.Format

namespace Constant

/-- The constants that have an equal of the other sign. -/
def isSignedZero : Constant → Bool
  | float bits => Decimal.Format.single.isZero bits.toNat
  | double bits => Decimal.Format.double.isZero bits.toNat
  | _ => false

/-- The constant, with the positive zero for both zeros. -/
def unsigned (value : Constant) : Constant :=
  if value.isSignedZero then zero value.ty else value

variable {a b : Constant}

theorem isSignedZero_zero (h : a.isSignedZero) : (zero a.ty).isSignedZero := by
  cases a with
  | float bits => rfl
  | double bits => rfl
  | _ => cases h

theorem unsigned_ty (a : Constant) : a.unsigned.ty = a.ty := by
  unfold unsigned
  split
  · cases a <;> first | rfl | contradiction
  · rfl

theorem unsigned_zero (ty : Ty) : (zero ty).unsigned = zero ty := by
  unfold zero
  split <;> rfl

/-- Equal source constants are identical or zeros of one type. -/
theorem eq_or_isSignedZero_of_numericEq (h : a.numericEq b) :
    a = b ∨ a.isSignedZero ∧ b.isSignedZero ∧ a.ty = b.ty := by
  unfold numericEq at h
  split at h
  · obtain heq | ⟨hzero, hzero'⟩ := Decimal.Format.eq_or_isZero_of_numericEq _ h
    · exact .inl (congrArg float (UInt32.toNat_inj.1 heq))
    · exact .inr ⟨hzero, hzero', rfl⟩
  · obtain heq | ⟨hzero, hzero'⟩ := Decimal.Format.eq_or_isZero_of_numericEq _ h
    · exact .inl (congrArg double (UInt64.toNat_inj.1 heq))
    · exact .inr ⟨hzero, hzero', rfl⟩
  · exact .inl (beq_iff_eq.1 h)

theorem unsigned_eq_of_numericEq (h : a.numericEq b) : a.unsigned = b.unsigned := by
  obtain rfl | ⟨ha, hb, hty⟩ := eq_or_isSignedZero_of_numericEq h
  · rfl
  · rw [unsigned, unsigned, if_pos ha, if_pos hb, hty]

theorem orderedEq_self (a : Constant) : a.orderedEq a := by
  cases a with
  | float bits => exact Decimal.Format.orderedEq_self _ _
  | double bits => exact Decimal.Format.orderedEq_self _ _
  | _ => exact beq_self_eq_true _

theorem orderedEq_of_isSignedZero (ha : a.isSignedZero) (hb : b.isSignedZero) (hty : a.ty = b.ty) :
    a.orderedEq b := by
  cases a with
  | float bits =>
      cases b with
      | float bits' => exact Decimal.Format.orderedEq_of_isZero _ ha hb
      | _ => cases hty
  | double bits =>
      cases b with
      | double bits' => exact Decimal.Format.orderedEq_of_isZero _ ha hb
      | _ => cases hty
  | _ => cases ha

/-- Compiled constants that differ only in the sign of zero are equal. -/
theorem orderedEq_of_unsigned_eq (h : a.unsigned = b.unsigned) : a.orderedEq b := by
  have hty : a.ty = b.ty := by rw [← a.unsigned_ty, h, b.unsigned_ty]
  unfold unsigned at h
  split at h
  · rename_i ha
    split at h
    · rename_i hb
      exact orderedEq_of_isSignedZero ha hb hty
    · rename_i hb
      exact absurd (h ▸ isSignedZero_zero ha) hb
  · rename_i ha
    split at h
    · rename_i hb
      exact absurd (h ▸ isSignedZero_zero hb) ha
    · rw [h]
      exact b.orderedEq_self

end Constant

/-- Zeros without signs; all else is spelled as it is. -/
def Respelling.unsigned : Respelling :=
  { Respelling.renaming (.refl String) (.refl String) with
    constant := Constant.unsigned
    constant_ty := Constant.unsigned_ty
    constant_one := rfl
    constant_zero := Constant.unsigned_zero }

theorem Constant.map_unsigned_of_sameOption {a b : Option Constant} (h : sameOption a b) :
    a.map unsigned = b.map unsigned := by
  cases a with
  | none =>
      cases b with
      | none => rfl
      | some b => cases h
  | some a =>
      cases b with
      | none => cases h
      | some b => exact congrArg some (unsigned_eq_of_numericEq h)

/-- Equal locals are spelled alike without the signs of zeros. -/
theorem LocalDecl.respell_eq_of_same {a b : LocalDecl} (h : a.same b) :
    a.respell .unsigned = b.respell .unsigned := by
  obtain ⟨name, ty, parameter?, origin, modifiers, constant?, span⟩ := a
  simp only [same, Bool.and_eq_true, beq_iff_eq, and_assoc] at h
  obtain ⟨rfl, rfl, rfl, rfl, rfl, hconstant, rfl⟩ := h
  rw [respell, respell]
  simp only [LocalDecl.mk.injEq, true_and, and_true]
  exact Constant.map_unsigned_of_sameOption hconstant

theorem Decl.respell_eq_of_same {a b : Decl} (h : a.same b) :
    a.respell .unsigned = b.respell .unsigned := by
  unfold same at h
  split at h
  · exact congrArg localVar (LocalDecl.respell_eq_of_same h)
  · rw [beq_iff_eq.1 h]
  · rw [beq_iff_eq.1 h]
  · rw [beq_iff_eq.1 h]
  · rfl
  · cases h

mutual

/-- Equal expressions are spelled alike without the signs of zeros. -/
theorem Expr.respell_eq_of_same : ∀ a b : Expr, a.same b →
    a.respell .unsigned = b.respell .unsigned
  | .literal note value, e, h => by
      unfold Expr.same at h
      split at h
      · simp only [Bool.and_eq_true, beq_iff_eq] at h
        obtain ⟨rfl, hvalue⟩ := h
        exact congrArg (literal _) (Constant.unsigned_eq_of_numericEq hvalue)
      · cases h
  | .name note qualifier n decl, e, h => by
      unfold Expr.same at h
      split at h
      · simp only [Bool.and_eq_true, beq_iff_eq, and_assoc] at h
        obtain ⟨rfl, hqualifier, rfl, hdecl⟩ := h
        rw [respell, respell, Expr.respellOfOption_eq_of_same qualifier _ hqualifier,
          Decl.respell_eq_of_same hdecl]
      · cases h
  | .thisRef .., e, h | .superRef .., e, h | .classLiteral .., e, h | .lambda .., e, h
  | .methodRef .., e, h => by
      unfold Expr.same at h
      split at h
      · simp only [Bool.and_eq_true, beq_iff_eq] at h
        simp only [h]
      · cases h
  | .paren note inner, e, h => by
      unfold Expr.same at h
      split at h
      · simp only [Bool.and_eq_true, beq_iff_eq] at h
        obtain ⟨rfl, hinner⟩ := h
        rw [respell, respell, Expr.respell_eq_of_same inner _ hinner]
      · cases h
  | .chain note operands ops, e, h => by
      unfold Expr.same at h
      split at h
      · simp only [Bool.and_eq_true, beq_iff_eq, and_assoc] at h
        obtain ⟨rfl, hoperands, rfl⟩ := h
        rw [respell, respell, Expr.respellOfList_eq_of_same operands _ hoperands]
      · cases h
  | .unary note op operand, e, h => by
      unfold Expr.same at h
      split at h
      · simp only [Bool.and_eq_true, beq_iff_eq, and_assoc] at h
        obtain ⟨rfl, rfl, hoperand⟩ := h
        rw [respell, respell, Expr.respell_eq_of_same operand _ hoperand]
      · cases h
  | .step note op form operand, e, h => by
      unfold Expr.same at h
      split at h
      · simp only [Bool.and_eq_true, beq_iff_eq, and_assoc] at h
        obtain ⟨rfl, rfl, rfl, hoperand⟩ := h
        rw [respell, respell, Expr.respell_eq_of_same operand _ hoperand]
      · cases h
  | .assign note op target value, e, h => by
      unfold Expr.same at h
      split at h
      · simp only [Bool.and_eq_true, beq_iff_eq, and_assoc] at h
        obtain ⟨rfl, rfl, htarget, hvalue⟩ := h
        rw [respell, respell, Expr.respell_eq_of_same target _ htarget,
          Expr.respell_eq_of_same value _ hvalue]
      · cases h
  | .conditional note condition thenValue elseValue, e, h => by
      unfold Expr.same at h
      split at h
      · simp only [Bool.and_eq_true, beq_iff_eq, and_assoc] at h
        obtain ⟨rfl, hcondition, hthen, helse⟩ := h
        rw [respell, respell, Expr.respell_eq_of_same condition _ hcondition,
          Expr.respell_eq_of_same thenValue _ hthen,
          Expr.respell_eq_of_same elseValue _ helse]
      · cases h
  | .instanceOf note operand target, e, h => by
      unfold Expr.same at h
      split at h
      · simp only [Bool.and_eq_true, beq_iff_eq, and_assoc] at h
        obtain ⟨rfl, hoperand, rfl⟩ := h
        rw [respell, respell, Expr.respell_eq_of_same operand _ hoperand]
      · cases h
  | .cast note target operand, e, h => by
      unfold Expr.same at h
      split at h
      · simp only [Bool.and_eq_true, beq_iff_eq, and_assoc] at h
        obtain ⟨rfl, rfl, hoperand⟩ := h
        rw [respell, respell, Expr.respell_eq_of_same operand _ hoperand]
      · cases h
  | .index note array position, e, h => by
      unfold Expr.same at h
      split at h
      · simp only [Bool.and_eq_true, beq_iff_eq, and_assoc] at h
        obtain ⟨rfl, harray, hposition⟩ := h
        rw [respell, respell, Expr.respell_eq_of_same array _ harray,
          Expr.respell_eq_of_same position _ hposition]
      · cases h
  | .call note qualifier n method args, e, h => by
      unfold Expr.same at h
      split at h
      · simp only [Bool.and_eq_true, beq_iff_eq, and_assoc] at h
        obtain ⟨rfl, hqualifier, rfl, rfl, hargs⟩ := h
        rw [respell, respell, Expr.respellOfOption_eq_of_same qualifier _ hqualifier,
          Expr.respellOfList_eq_of_same args _ hargs]
      · cases h
  | .newInstance note c constructor outer args anonymous, e, h => by
      unfold Expr.same at h
      split at h
      · simp only [Bool.and_eq_true, beq_iff_eq, and_assoc] at h
        obtain ⟨rfl, rfl, rfl, houter, hargs, rfl⟩ := h
        rw [respell, respell, Expr.respellOfOption_eq_of_same outer _ houter,
          Expr.respellOfList_eq_of_same args _ hargs]
      · cases h
  | .newArray note dims init, e, h => by
      unfold Expr.same at h
      split at h
      · simp only [Bool.and_eq_true, beq_iff_eq, and_assoc] at h
        obtain ⟨rfl, hdims, hinit⟩ := h
        rw [respell, respell, Expr.respellOfList_eq_of_same dims _ hdims,
          Expr.respellOfOption_eq_of_same init _ hinit]
      · cases h
  | .braces note elements, e, h => by
      unfold Expr.same at h
      split at h
      · simp only [Bool.and_eq_true, beq_iff_eq] at h
        obtain ⟨rfl, helements⟩ := h
        rw [respell, respell, Expr.respellOfList_eq_of_same elements _ helements]
      · cases h

theorem Expr.respellOfList_eq_of_same : ∀ xs ys : List Expr, Expr.sameList xs ys →
    Expr.respellOfList .unsigned xs = Expr.respellOfList .unsigned ys
  | [], [], _ => rfl
  | a :: xs, b :: ys, h => by
      rw [Expr.sameList, Bool.and_eq_true] at h
      rw [Expr.respellOfList, Expr.respellOfList, Expr.respell_eq_of_same a b h.1,
        Expr.respellOfList_eq_of_same xs ys h.2]
  | [], _ :: _, h | _ :: _, [], h => by cases h

theorem Expr.respellOfOption_eq_of_same : ∀ a b : Option Expr, Expr.sameOption a b →
    Expr.respellOfOption .unsigned a = Expr.respellOfOption .unsigned b
  | none, none, _ => rfl
  | some a, some b, h => by
      rw [Expr.sameOption] at h
      rw [Expr.respellOfOption, Expr.respellOfOption, Expr.respell_eq_of_same a b h]
  | none, some _, h | some _, none, h => by cases h

end

/-! ### Trees -/

theorem Tree.ctorIdx_respell (r : Respelling) (t : Tree) : (t.respell r).ctorIdx = t.ctorIdx := by
  cases t with
  | localVar n slot => cases slot <;> rfl
  | _ => rfl

/-- The trees that are spelled as `t` without the signs of zeros are equal to `t`. -/
def Tree.Unsigned (t : Tree) : Prop :=
  ∀ u : Tree, t.respell .unsigned = u.respell .unsigned → t.same u

namespace Tree

theorem localVar_unsigned (n : String) (slot : Slot) :
    (localVar n slot).respell .unsigned = localVar n slot := by
  cases slot <;> rfl

theorem sameList_of_respell_eq {trees others : List Tree} (ih : ∀ t ∈ trees, t.Unsigned)
    (h : trees.map (respell .unsigned) = others.map (respell .unsigned)) :
    sameList trees others := by
  induction trees generalizing others with
  | nil =>
      rw [List.map_nil, eq_comm, List.map_eq_nil_iff] at h
      subst h
      rfl
  | cons t rest ihrest =>
      cases others with
      | nil => cases h
      | cons u others =>
          obtain ⟨ht, hrest⟩ := List.cons_eq_cons.1 h
          rw [List.forall_mem_cons] at ih
          rw [sameList, ih.1 u ht, ihrest ih.2 hrest]
          rfl

theorem sameOption_of_respell_eq {t u : Option Tree} (ih : ∀ s ∈ t.toList, s.Unsigned)
    (h : t.map (respell .unsigned) = u.map (respell .unsigned)) : sameOption t u := by
  cases t with
  | none =>
      cases u with
      | none => rfl
      | some u => cases h
  | some t =>
      cases u with
      | none => cases h
      | some u => exact ih t (by simp) u (Option.some.inj h)

theorem sameElements_of_respell_eq {trees others : Option (List Tree)}
    (ih : ∀ t ∈ trees.getD [], t.Unsigned)
    (h : trees.map (List.map (respell .unsigned)) = others.map (List.map (respell .unsigned))) :
    sameElements trees others := by
  cases trees with
  | none =>
      cases others with
      | none => rfl
      | some others => cases h
  | some trees =>
      cases others with
      | none => cases h
      | some others => exact sameList_of_respell_eq ih (Option.some.inj h)

theorem sameLocal_of_respell_eq {entry other : LocalInit} (ih : ∀ t ∈ entry.trees, t.Unsigned)
    (h : entry.respell .unsigned = other.respell .unsigned) : entry.same other := by
  obtain ⟨n, ty, zero, init⟩ := entry
  obtain ⟨n', ty', zero', init'⟩ := other
  rw [LocalInit.respell, LocalInit.respell, respellOfOption_eq, respellOfOption_eq] at h
  injection h with hname hty hzero hinit
  rw [LocalInit.trees, List.forall_mem_cons] at ih
  simp [LocalInit.same, Respelling.unsigned.name.injective hname, hty, ih.1 zero' hzero,
    sameOption_of_respell_eq ih.2 hinit]

theorem sameLocals_of_respell_eq {locals others : List LocalInit}
    (ih : ∀ t ∈ locals.flatMap LocalInit.trees, t.Unsigned)
    (h : locals.map (LocalInit.respell .unsigned) = others.map (LocalInit.respell .unsigned)) :
    LocalInit.sameList locals others := by
  induction locals generalizing others with
  | nil =>
      rw [List.map_nil, eq_comm, List.map_eq_nil_iff] at h
      subst h
      rfl
  | cons entry rest ihrest =>
      cases others with
      | nil => cases h
      | cons other others =>
          obtain ⟨hentry, hrest⟩ := List.cons_eq_cons.1 h
          rw [List.flatMap_cons, List.forall_mem_append] at ih
          rw [LocalInit.sameList, sameLocal_of_respell_eq ih.1 hentry, ihrest ih.2 hrest]
          rfl

/-- Trees that are identical without the signs of zeros are equal. -/
theorem unsigned (t : Tree) : t.Unsigned := by
  induction t using Tree.children_induction with
  | step t ih =>
      intro u h
      -- A respelling keeps the constructor, so only trees with equal constructors are left.
      have hroot : t.ctorIdx = u.ctorIdx := by
        rw [← t.ctorIdx_respell .unsigned, h, u.ctorIdx_respell]
      revert ih h
      apply Tree.pair_cases hroot
      case literal =>
        intro value ty value' ty' _ h
        injection h with hvalue hty
        change (_ && _) = true
        simp [Constant.orderedEq_of_unsigned_eq hvalue, hty]
      case localVar =>
        intro n slot n' slot' _ h
        rw [localVar_unsigned, localVar_unsigned] at h
        injection h with hname hslot
        change (_ && _) = true
        simp [hname, hslot]
      case thisAt | superAt | typeRef | classObject =>
        intro a b _ h
        injection h with hab
        exact beq_iff_eq.2 hab
      case breakTo | continueTo =>
        intro label label' _ h
        injection h with hlabel
        exact beq_iff_eq.2 (Option.map_injective Respelling.unsigned.label.injective hlabel)
      case pin | throwValue =>
        intro operand operand' ih h
        injection h with hoperand
        exact ih operand List.mem_cons_self operand' hoperand
      case instanceOf | cast | box | unbox =>
        intro operand a operand' b ih h
        injection h with hoperand hab
        change (_ && _) = true
        simp [ih operand List.mem_cons_self operand' hoperand, hab]
      case field =>
        intro object n filter object' n' filter' ih h
        injection h with hobject hname hfilter
        change (_ && _) = true
        simp [ih object List.mem_cons_self object' hobject, hname, hfilter]
      case unary =>
        intro op operand ty op' operand' ty' ih h
        injection h with hop hoperand hty
        change (_ && _) = true
        simp [hop, ih operand List.mem_cons_self operand' hoperand, hty]
      case element =>
        intro array index array' index' ih h
        rw [children, List.forall_mem_cons, List.forall_mem_singleton] at ih
        injection h with harray hindex
        change (_ && _) = true
        simp [ih.1 array' harray, ih.2 index' hindex]
      case assign =>
        intro target value yieldsOld target' value' yieldsOld' ih h
        rw [children, List.forall_mem_cons, List.forall_mem_singleton] at ih
        injection h with htarget hvalue hyieldsOld
        change (_ && _) = true
        simp [ih.1 target' htarget, ih.2 value' hvalue, hyieldsOld]
      case binary =>
        intro op left right ty op' left' right' ty' ih h
        rw [children, List.forall_mem_cons, List.forall_mem_singleton] at ih
        injection h with hop hleft hright hty
        change (_ && _) = true
        simp [hop, ih.1 left' hleft, ih.2 right' hright, hty]
      case conditional =>
        intro condition thenValue elseValue condition' thenValue' elseValue' ih h
        rw [children, List.forall_mem_cons, List.forall_mem_cons, List.forall_mem_singleton] at ih
        injection h with hcondition hthen helse
        change (_ && _) = true
        simp [ih.1 condition' hcondition, ih.2.1 thenValue' hthen, ih.2.2 elseValue' helse]
      case call =>
        intro object method args object' method' args' ih h
        rw [children, List.forall_mem_cons] at ih
        rw [respell_call, respell_call] at h
        injection h with hobject hmethod hargs
        change (_ && _) = true
        simp [ih.1 object' hobject, hmethod, sameList_of_respell_eq ih.2 hargs]
      case newInstance =>
        intro c constructor args c' constructor' args' ih h
        rw [respell_newInstance, respell_newInstance] at h
        injection h with hc hconstructor hargs
        have hsame : sameList args args' := sameList_of_respell_eq ih hargs
        change (_ && _) = true
        simp [hc, hconstructor, hsame]
      case newArray =>
        intro ty dimension elements ty' dimension' elements' ih h
        rw [children, List.forall_mem_append] at ih
        rw [respell_newArray, respell_newArray] at h
        injection h with hty hdimension helements
        change (_ && _) = true
        simp [hty, sameOption_of_respell_eq ih.1 hdimension,
          sameElements_of_respell_eq ih.2 helements]
      case block =>
        intro stmts stmts' ih h
        rw [respell_block, respell_block] at h
        injection h with hstmts
        exact sameList_of_respell_eq ih hstmts
      case fragment =>
        intro stmts stmts' ih h
        rw [respell_fragment, respell_fragment] at h
        injection h with hstmts
        exact sameList_of_respell_eq ih hstmts
      case declare =>
        intro locals locals' ih h
        rw [respell_declare, respell_declare] at h
        injection h with hlocals
        exact sameLocals_of_respell_eq ih hlocals
      case ifElse =>
        intro label condition thenBranch elseBranch label' condition' thenBranch' elseBranch' ih h
        rw [children, List.forall_mem_cons, List.forall_mem_cons] at ih
        rw [respell_ifElse, respell_ifElse] at h
        injection h with hlabel hcondition hthen helse
        change (_ && _) = true
        simp [Option.map_injective Respelling.unsigned.label.injective hlabel,
          ih.1 condition' hcondition, ih.2.1 thenBranch' hthen,
          sameOption_of_respell_eq ih.2.2 helse]
      case whileLoop | doLoop =>
        intro label first second label' first' second' ih h
        rw [children, List.forall_mem_cons, List.forall_mem_singleton] at ih
        injection h with hlabel hfirst hsecond
        change (_ && _) = true
        simp [Option.map_injective Respelling.unsigned.label.injective hlabel,
          ih.1 first' hfirst, ih.2 second' hsecond]
      case forLoop =>
        intro label init condition update body label' init' condition' update' body' ih h
        rw [children, List.forall_mem_append, List.forall_mem_append, List.forall_mem_append,
          List.forall_mem_singleton] at ih
        obtain ⟨⟨⟨ihinit, ihcondition⟩, ihupdate⟩, ihbody⟩ := ih
        rw [respell_forLoop, respell_forLoop] at h
        injection h with hlabel hinit hcondition hupdate hbody
        change (_ && _) = true
        simp [Option.map_injective Respelling.unsigned.label.injective hlabel,
          sameList_of_respell_eq ihinit hinit, sameOption_of_respell_eq ihcondition hcondition,
          sameList_of_respell_eq ihupdate hupdate, ihbody body' hbody]
      case returnValue =>
        intro value value' ih h
        rw [respell_returnValue, respell_returnValue] at h
        injection h with hvalue
        exact sameOption_of_respell_eq ih hvalue

end Tree

/-- Equal outcomes: equal trees, or one and the same refusal. -/
def Outcome.same : Except Fault Tree → Except Fault Tree → Bool
  | .ok t, .ok u => t.same u
  | .error fault, .error fault' => fault == fault'
  | _, _ => false

/-- No refusal tells the sign of a zero. -/
theorem Fault.Respelled.eq_of_unsigned {D : LocalDecl → Excerpt → Prop} {fault fault' : Fault}
    (h : fault.Respelled .unsigned D fault') : fault' = fault := by
  cases h with
  | @plain cause excerpt hcause => cases cause <;> rfl
  | @hidden d excerpt hd =>
      have hname : (d.respell .unsigned).name = d.name := by
        cases horigin : d.origin with
        | fragment => exact d.name_respell_of_fragment _ horigin
        | method declaring => exact d.name_respell_of_method _ horigin
      rw [hname]
      rfl

/-- An expression without the signs of zeros compiles to the tree without them. -/
theorem compileExpr_unsigned (site : Site) (e : Expr) :
    compileExpr site (e.respell .unsigned) = (compileExpr site e).map (Tree.respell .unsigned) := by
  cases hcompile : compileExpr site e with
  | ok t => exact (Source.expr e).compile_respell_of_ok hcompile
  | error fault =>
      obtain ⟨fault', hfault', hrel⟩ :=
        (Source.expr e).compile_respell_of_error (r := .unsigned) hcompile
      rw [hrel.eq_of_unsigned] at hfault'
      exact hfault'

/-- Equal expressions have equal outcomes: both compile, to equal trees, or both are refused, with
the same fault. -/
theorem equal_sources_equal_outcomes (site : Site) (a b : Expr) (h : a.same b) :
    Outcome.same (compileExpr site a) (compileExpr site b) := by
  have hunsigned : (compileExpr site a).map (Tree.respell .unsigned) =
      (compileExpr site b).map (Tree.respell .unsigned) := by
    rw [← compileExpr_unsigned, Expr.respell_eq_of_same a b h, compileExpr_unsigned]
  cases ha : compileExpr site a with
  | ok t =>
      cases hb : compileExpr site b with
      | ok u =>
          rw [ha, hb] at hunsigned
          exact t.unsigned u (Except.ok.inj hunsigned)
      | error fault =>
          rw [ha, hb] at hunsigned
          cases hunsigned
  | error fault =>
      cases hb : compileExpr site b with
      | ok u =>
          rw [ha, hb] at hunsigned
          cases hunsigned
      | error fault' =>
          rw [ha, hb] at hunsigned
          exact beq_iff_eq.2 (Except.error.inj hunsigned)

/-- The name of a local with a constant value, declared by a method around the classes of a
position. -/
def Expr.capturedDouble (bits : UInt64) : Expr :=
  .name { ty? := some (.prim .double) } none "rate"
    (.localVar (LocalDecl.withConstant
      { name := "rate", ty := .prim .double, origin := .method ⟨3⟩ } (.double bits)))

/-- A captured local holds the one zero or the other. Its constant is put in its place, and the two
trees are equal, though not identical. -/
theorem equal_sources_equal_outcomes_capturedDouble :
    let site : Site := ⟨.empty, ⟨[⟨2⟩, ⟨3⟩], .onInstance⟩, {}⟩
    let zero (bits : UInt64) : Tree := .literal (.double bits) (.prim .double)
    (Expr.capturedDouble 0).same (Expr.capturedDouble 0x8000000000000000) ∧
      compileExpr site (.capturedDouble 0) = .ok (zero 0) ∧
      compileExpr site (.capturedDouble 0x8000000000000000) = .ok (zero 0x8000000000000000) ∧
      (zero 0).same (zero 0x8000000000000000) := by
  intro site zero
  have hsame : (Expr.capturedDouble 0).same (Expr.capturedDouble 0x8000000000000000) := by decide
  have hpositive : compileExpr site (.capturedDouble 0) = .ok (zero 0) := rfl
  have hnegative : compileExpr site (.capturedDouble 0x8000000000000000) =
      .ok (zero 0x8000000000000000) := rfl
  have houtcome := equal_sources_equal_outcomes site _ _ hsame
  rw [hpositive, hnegative] at houtcome
  exact ⟨hsame, hpositive, hnegative, houtcome⟩

end Breakpoint
