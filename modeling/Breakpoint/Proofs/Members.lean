import Breakpoint.Proofs.Arity

/-!
Members and the objects they belong to. The object of a field is chosen where a name is compiled and
that of a method where a call is, each time anew. Both follow one rule: a static member belongs to
its class, another one to what its qualifier compiles to, and without a qualifier to the nearest
enclosing instance. They part only at a qualifier that is the name of a type. A field of instances
passes over it, as if there were no qualifier; a method of instances is called on it.
-/

namespace Breakpoint

namespace View

variable {v : View} {m : MethodDecl}

/-- The object that a member of `declaring` belongs to, behind a qualifier or without one. -/
def objectOf (v : View) (declaring : ClassId) (isStatic : Bool) (qualifier : Option Expr)
    (excerpt : Excerpt) : Except Fault Tree :=
  if isStatic then .ok (.typeRef (.ofClass declaring))
  else
    match qualifier with
    | some e => v.lower .receiver e
    | none => v.thisFor declaring excerpt

/-- The qualifier is compiled first, if it is needed, and the object is chosen then. -/
theorem objectOf_eq (declaring : ClassId) (isStatic : Bool) (qualifier : Option Expr)
    (excerpt : Excerpt) : v.objectOf declaring isStatic qualifier excerpt =
      v.lowerReceiver (!isStatic) qualifier >>= fun receiver =>
        v.memberOwner declaring isStatic receiver excerpt := by
  cases qualifier with
  | none =>
      rw [lowerReceiver]
      rfl
  | some e =>
      rw [lowerReceiver]
      cases isStatic with
      | true => rfl
      | false =>
          change v.lower .receiver e = (v.lower .receiver e).map some >>= _
          cases v.lower .receiver e <;> rfl

/-- A field belongs to the object that the rule gives, once the name of a type is left out. -/
theorem lower_field (note : Note) (qualifier : Option Expr) {name : String}
    (hname : name ≠ "length") (d : FieldDecl) :
    v.lower .value (.name note qualifier name (.field d)) =
      (v.objectOf d.declaring d.modifiers.isStatic (qualifier.filter fun e => !e.isTypeName)
        note.excerpt).map fun object => .field object d.name (.declaredBy d.declaring) := by
  cases qualifier with
  | none =>
      rw [lower]
      rfl
  | some e =>
      have hlength : isLength e name = false := by simp [isLength, hname]
      rw [lower, hlength]
      change v.qualifiedName note name e.isTypeName (v.lower .receiver e) (.field d) = _
      rw [qualifiedName, Option.filter_some, objectOf_eq]
      -- Once the name of a type is left out, the qualifier is compiled on the same condition.
      cases e.isTypeName with
      | true =>
          rw [Bool.or_true, if_pos rfl, Bool.not_true, if_neg Bool.false_ne_true, lowerReceiver]
          rfl
      | false =>
          rw [Bool.or_false, Bool.not_false, if_pos rfl, lowerReceiver]
          by_cases hstatic : d.modifiers.isStatic = true
          · rw [if_pos hstatic, if_neg (by simp [hstatic])]
            rfl
          · rw [if_neg hstatic, if_pos (by simp [hstatic])]
            cases v.lower .receiver e <;> rfl

/-- A method without parameters is called on the object that the rule gives. -/
theorem lower_call (note : Note) (qualifier : Option Expr) (name : String)
    (hparams : m.params = []) :
    v.lower .value (.call note qualifier name (some m) []) =
      (v.objectOf m.declaring m.modifiers.isStatic qualifier note.excerpt).map fun object =>
        .call object m.ref [] := by
  have hfixed : ¬m.Variadic := fun hm => hm.2 hparams
  have hargs : v.hierarchy.arguments m [] note.excerpt = .ok [] := by
    rw [Hierarchy.arguments_of_not_variadic hfixed, hparams]
    rfl
  rw [lower, lowerOperands, objectOf_eq]
  cases v.lowerReceiver (!m.modifiers.isStatic) qualifier with
  | error fault => rfl
  | ok receiver =>
      change (v.memberOwner m.declaring m.modifiers.isStatic receiver note.excerpt >>= fun object =>
        v.hierarchy.arguments m [] note.excerpt >>= fun trees =>
          .ok (Tree.call object m.ref trees)) =
        (v.memberOwner m.declaring m.modifiers.isStatic receiver note.excerpt).map _
      rw [hargs]
      cases v.memberOwner m.declaring m.modifiers.isStatic receiver note.excerpt <;> rfl

end View

/-- Fields and methods find their objects in the same way, unless a qualifier names a type. Let a
field and a method without parameters be declared by one class, both static or both not, and be
written behind one qualifier, or none, with the same excerpt. If they are static or the qualifier is
not the name of a type, then either both compile and have one object, or both are refused with one
fault. Behind the name of a type, a field of instances is what it is without the qualifier, but a
method of instances is called on what the qualifier compiles to. -/
theorem members_share_object (v : View) (qualifier : Option Expr) (d : FieldDecl) (m : MethodDecl)
    (hparams : m.params = []) (hdeclaring : m.declaring = d.declaring)
    (hstatic : m.modifiers.isStatic = d.modifiers.isStatic) (name called : String)
    (hname : name ≠ "length") (note note' : Note) (hexcerpt : note'.excerpt = note.excerpt) :
    let field := v.lower .value (.name note qualifier name (.field d))
    let call := v.lower .value (.call note' qualifier called (some m) [])
    ((d.modifiers.isStatic = true ∨ ∀ e ∈ qualifier, e.isTypeName = false) →
      (∃ object, field = .ok (.field object d.name (.declaredBy d.declaring)) ∧
        call = .ok (.call object m.ref [])) ∨
      ∃ fault, field = .error fault ∧ call = .error fault) ∧
    ∀ e ∈ qualifier, d.modifiers.isStatic = false → e.isTypeName = true →
      field = v.lower .value (.name note none name (.field d)) ∧
      call = (v.lower .receiver e).map fun object => .call object m.ref [] := by
  intro field call
  have hfield : field = _ := v.lower_field note qualifier hname d
  have hcall : call = _ := v.lower_call note' qualifier called hparams
  rw [hdeclaring, hstatic, hexcerpt] at hcall
  constructor
  · intro hagree
    -- Leaving out the name of a type makes no difference here.
    have hsame : v.objectOf d.declaring d.modifiers.isStatic
        (qualifier.filter fun e => !e.isTypeName) note.excerpt =
          v.objectOf d.declaring d.modifiers.isStatic qualifier note.excerpt := by
      rcases hagree with hstatic | hplain
      · rw [hstatic]
        rfl
      · cases qualifier with
        | none => rfl
        | some e => rw [Option.filter_some, hplain e rfl, Bool.not_false, if_pos rfl]
    rw [hsame] at hfield
    cases hobject : v.objectOf d.declaring d.modifiers.isStatic qualifier note.excerpt with
    | ok object =>
        rw [hobject] at hfield hcall
        exact .inl ⟨object, hfield, hcall⟩
    | error fault =>
        rw [hobject] at hfield hcall
        exact .inr ⟨fault, hfield, hcall⟩
  · intro e he hinstance htype
    cases he
    rw [hinstance] at hcall
    refine ⟨?_, hcall⟩
    rw [hfield, v.lower_field note none hname d, Option.filter_some]
    simp [htype]

/-- A counter that every instance has. -/
def FieldDecl.counter : FieldDecl := { name := "count", ty := .int, declaring := ⟨1⟩ }

/-- The method that reads the counter. -/
def MethodDecl.counter : MethodDecl := { name := "count", declaring := ⟨1⟩, returnType := .int }

/-- Behind the superclass view in parentheses, both belong to the current instance. -/
theorem members_share_object_superView :
    let v : View := ⟨⟨.empty, ⟨[⟨1⟩], .onInstance⟩, {}⟩, fun _ => false⟩
    let superView : Expr := .paren {} (.superRef {} none)
    v.lower .value (.name {} superView "count" (.field .counter)) =
        .ok (.field (.superAt 0) "count" (.declaredBy ⟨1⟩)) ∧
      v.lower .value (.call {} superView "count" (some .counter) []) =
        .ok (.call (.superAt 0) MethodDecl.counter.ref []) := by
  intro v superView
  have hfield : v.lower .value (.name {} superView "count" (.field .counter)) =
      .ok (.field (.superAt 0) "count" (.declaredBy ⟨1⟩)) := rfl
  have hshare := (members_share_object v superView .counter .counter rfl rfl rfl
    "count" "count" (by decide) {} {} rfl).1
  rcases hshare (.inr (by rintro e ⟨⟩; rfl)) with ⟨object, hfield', hcall⟩ | ⟨fault, hfault, -⟩
  · cases hfield.symm.trans hfield'
    exact ⟨hfield, hcall⟩
  · cases hfield.symm.trans hfault

/-- Behind the name of their class, the field belongs to the current instance and the method to the
class; without a current instance the field is refused and the method is not. -/
theorem type_name_parts_members :
    let view (activation : Activation) : View := ⟨⟨.empty, ⟨[⟨1⟩], activation⟩, {}⟩, fun _ => false⟩
    let typeName : Expr := .name {} none "Main" (.type (.ofClass ⟨1⟩))
    let field : Expr := .name {} typeName "count" (.field .counter)
    let call : Expr := .call {} typeName "count" (some .counter) []
    let onClass : Tree := .call (.typeRef (.ofClass ⟨1⟩)) MethodDecl.counter.ref []
    (view .onInstance).lower .value field =
        .ok (.field (.thisAt 0) "count" (.declaredBy ⟨1⟩)) ∧
      (view .onInstance).lower .value call = .ok onClass ∧
      (view .static).lower .value field = .error ⟨.thisNotAvailable, {}⟩ ∧
      (view .static).lower .value call = .ok onClass := by
  intro view typeName field call onClass
  exact ⟨rfl, rfl, rfl, rfl⟩

end Breakpoint
