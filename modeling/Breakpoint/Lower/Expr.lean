import Breakpoint.Access
import Breakpoint.Arguments
import Breakpoint.Operand.Pair

/-! Expressions to trees. An expression is read in one of four roles, which decide what a bare
superclass reference, a brace list, a parenthesis or a place that can be stored to means there.
Children are compiled first; then the conversions that their static types call for are wrapped
around them. -/

namespace Breakpoint

/-- What an expression is needed for. -/
inductive Role where
  /-- Its value. -/
  | value
  /-- The object in front of a member, where the superclass view of an instance is allowed. -/
  | receiver
  /-- The place it denotes, to store to. -/
  | target
  /-- The elements of an array of type `ty`. -/
  | initializer (ty : Ty)
deriving DecidableEq, Repr

namespace Role

/-- An expression that is neither a place nor a brace list: it has a value and nothing else. -/
def plain (role : Role) (note : Note) (value : Except Fault Tree) : Except Fault Tree :=
  match role with
  | .value | .receiver => value
  | .target => note.excerpt.refuse .notAnLvalue
  | .initializer _ => note.excerpt.refuse (.unsupportedConstruct .arrayInitializer)

/-- An expression that may turn out to be a place. -/
def place (role : Role) (note : Note) (value : Except Fault Tree) : Except Fault Tree :=
  match role with
  | .target => do
    let tree ← value
    if tree.isLvalue then pure tree else note.excerpt.refuse .notAnLvalue
  | _ => role.plain note value

end Role

/-- The static type of an expression, which has to be known. -/
def Note.needTy (note : Note) : Except Fault Ty :=
  match note.ty? with
  | some ty => .ok ty
  | none => note.excerpt.refuse .missingType

/-- The outcome of compiling `e`, together with the static type of `e`. -/
def Expr.operand (e : Expr) (outcome : Except Fault Tree) : Except Fault Operand := do
  let ty ← e.note.needTy
  let tree ← outcome
  pure ⟨tree, ty⟩

/-- The role of an expression whose value goes to a place of type `ty`: a brace list stands for an
array of that type. -/
def Expr.storedRole (e : Expr) (ty : Ty) : Role := if e.isBraces then .initializer ty else .value

/-- The outcome of compiling `e` for a place of type `ty`, converted to that type. -/
def Expr.stored (e : Expr) (ty : Ty) (outcome : Except Fault Tree) : Except Fault Tree :=
  if e.isBraces then outcome else (e.operand outcome).map fun x => (x.assignTo ty).tree

namespace View

/-- The spelling of a type in messages. -/
def typeName (v : View) (ty : Ty) : String := v.hierarchy.typeName ty

/-- A name without a qualifier. -/
def simpleName (v : View) (note : Note) (name : String) : Decl → Except Fault Tree
  | .localVar d => v.localAccess d note.excerpt
  | .field d => v.fieldAccess d none note.excerpt
  | .type ty => .ok (.typeRef ty)
  | .method _ => note.excerpt.refuse (.unresolvedSymbol name)
  | .unresolved =>
    if v.options.deferUnresolvedNames then .ok (.localVar name .deferred)
    else note.excerpt.refuse (.unresolvedSymbol name)

/-- A name with a qualifier, which compiles to `object` if it is needed at all: a static member, a
local and a type do not need it, nor does a field behind the name of a type. -/
def qualifiedName (v : View) (note : Note) (name : String) (onType : Bool)
    (object : Except Fault Tree) : Decl → Except Fault Tree
  | .field d => do
    if d.modifiers.isStatic || onType then v.fieldAccess d none note.excerpt
    else v.fieldAccess d (some (← object)) note.excerpt
  | .unresolved => do
    if v.options.deferUnresolvedNames then pure (.field (← object) name .any)
    else note.excerpt.refuse (.unresolvedSymbol name)
  | decl => v.simpleName note name decl

/-- Whether a name behind this qualifier is the length of an array. -/
def isLength (qualifier : Expr) (name : String) : Bool :=
  name == "length" && qualifier.ty?.any Ty.isArray

/-- The left part of a chain combined with its next operand `e`. A type error blames `e` and reaches
from the start of the chain to `e`. -/
def combine (v : View) (start : Span) (op : BinaryOp) (left right : Operand) (e : Expr) :
    Except Fault Operand :=
  let (left, right) := op.convert left right
  match op.result? left.ty right.ty with
  | some ty => .ok ⟨.binary op left.tree right.tree ty, ty⟩
  | none =>
    Excerpt.refuse ⟨e.excerpt.text, start.through e.excerpt.span⟩
      (.incompatibleOperands op (v.typeName left.ty) (v.typeName right.ty))

/-- The operand of a unary operator, unwrapped for a negation and promoted otherwise. -/
def unaryOperand (op : UnaryOp) (x : Operand) : Operand :=
  match op with
  | .not => x.unwrap
  | .plus | .minus | .bitNot => x.promote

/-- The kinds that a unary operator applies to. -/
def unaryAccepts (op : UnaryOp) (kind : Kind) : Bool :=
  match op with
  | .not => kind == .boolean
  | .bitNot => kind.isIntegral
  | .plus | .minus => kind.isNumeric

/-- A unary operation. -/
def applyUnary (v : View) (note : Note) (op : UnaryOp) (x : Operand) : Except Fault Tree :=
  let x := unaryOperand op x
  if x.ty.prim?.any (unaryAccepts op) then .ok (.unary op x.tree x.ty)
  else note.excerpt.refuse (.incompatibleOperand (.unary op) (v.typeName x.ty))

/-- A store of the value of `place`, stepped by one, back to `place`. The value is unwrapped,
brought to at least `int` for the operation, and converted back. -/
def stepTree (op : StepOp) (form : StepForm) (kind : Kind) (ty : Ty) (place : Tree) : Tree :=
  let promoted : Ty := .prim (kind.join .int)
  let read := (Operand.mk place ty).unwrap.castTo promoted
  let one := (Operand.mk (.literal (.int 1) .int) .int).castTo promoted
  let stepped : Operand := ⟨.binary op.binary read.tree one.tree promoted, promoted⟩
  let stored := (stepped.castTo (.prim kind)).tree
  .assign place (if ty.isClass then .box stored kind else stored) (form == .after)

/-- An increment or decrement of an expression that compiles to `place`. -/
def stepPlace (v : View) (note : Note) (op : StepOp) (form : StepForm) (ty : Ty)
    (place : Except Fault Tree) : Except Fault Tree :=
  match ty.kind?.filter Kind.isNumeric with
  | some kind => place.map (stepTree op form kind ty)
  | none => note.excerpt.refuse (.incompatibleOperand (.step op) (v.typeName ty))

/-- A condition, which has to be boolean once it is unwrapped. -/
def condition (v : View) (e : Expr) (x : Operand) : Except Fault Tree :=
  let x := x.unwrap
  if x.ty = .boolean then .ok x.tree
  else e.excerpt.refuse (.incompatibleTypes (v.typeName x.ty) "boolean")

/-- An index or a length, which has to be an `int` once it is promoted. -/
def intValue (v : View) (e : Expr) (x : Operand) : Except Fault Tree :=
  let x := x.promote
  if x.ty = .int then .ok x.tree
  else e.excerpt.refuse (.incompatibleTypes (v.typeName x.ty) "int")

/-- The outer class of an inner class, whose constructor takes an enclosing instance first. -/
def outerOfInner? (v : View) (c : ClassId) : Option ClassId :=
  (v.hierarchy.get? c).bind fun info => if info.nesting = .inner then info.outer else none

/-- The noted type of a created array, which has to be an array type; at most one dimension can be
given. -/
def createdTy (v : View) (note : Note) (dims : Nat) : Except Fault Ty := do
  let ty ← note.needTy
  if !ty.isArray then note.excerpt.refuse (.notAnArray (v.typeName ty))
  else if 1 < dims then note.excerpt.refuse .arrayDimensionsNotSupported
  else pure ty

/-- An array of type `ty` with the elements that `elements` gives for its component type. -/
def arrayOf (v : View) (note : Note) (ty : Ty) (elements : Ty → Except Fault (List Tree)) :
    Except Fault Tree :=
  match ty.component? with
  | some component => (elements component).map fun trees => .newArray ty none (some trees)
  | none => note.excerpt.refuse (.notAnArray (v.typeName ty))

mutual

/-- The tree of an expression in a role. -/
def lower (v : View) (role : Role) : Expr → Except Fault Tree
  | .literal note value => role.plain note (.ok (.literal value value.ty))
  | .name note none name decl => role.place note (v.simpleName note name decl)
  | .name note (some q) name decl => role.place note <|
    if isLength q name then (v.lower .value q).map fun array => .field array "length" .any
    else v.qualifiedName note name q.isTypeName (v.lower .receiver q) decl
  | .thisRef note qualifier =>
    role.plain note ((v.instanceDepth qualifier note.excerpt).map .thisAt)
  | .superRef note qualifier =>
    match role with
    | .receiver => (v.instanceDepth qualifier note.excerpt).map .superAt
    | _ => role.plain note (note.excerpt.refuse .superNotAValue)
  | .classLiteral note ty => role.plain note (.ok (.classObject ty))
  | .paren note inner =>
    match role with
    | .initializer _ => note.excerpt.refuse (.unsupportedConstruct .arrayInitializer)
    | _ => v.lower role inner
  | .chain note [] _ => role.plain note (note.excerpt.refuse (.unsupportedConstruct .emptyChain))
  | .chain note (first :: rest) ops => role.plain note do
    if rest.length ≠ ops.length then
      note.excerpt.refuse (.unsupportedConstruct .malformedChain)
    else
      let start := first.excerpt.span.orElse note.excerpt.span
      let left ← first.operand (v.lower .value first)
      let whole ← v.lowerRest start left rest ops
      pure whole.tree
  | .unary note op operand => role.plain note do
    let x ← operand.operand (v.lower .value operand)
    v.applyUnary note op x
  | .step note op form operand => role.plain note do
    let ty ← operand.note.needTy
    v.stepPlace note op form ty (v.lower .target operand)
  | .assign note (.compound op) _ _ =>
    role.plain note (note.excerpt.refuse (.operationNotSupported (.compound op)))
  | .assign note .plain target value => role.plain note do
    let ty ← target.note.needTy
    let place ← v.lower .target target
    let x ← value.operand (v.lower .value value)
    pure (.assign place (x.assignTo ty).tree false)
  | .conditional note condition thenValue elseValue => role.plain note do
    let ty ← note.needTy
    let test ← v.condition condition (← condition.operand (v.lower .value condition))
    let x ← thenValue.operand (v.lower .value thenValue)
    let y ← elseValue.operand (v.lower .value elseValue)
    pure (.conditional test (x.assignTo ty).tree (y.assignTo ty).tree)
  | .instanceOf note operand target => role.plain note do
    let x ← operand.operand (v.lower .value operand)
    if x.ty.isPrim then
      note.excerpt.refuse (.incompatibleOperand .instanceOf (v.typeName x.ty))
    else pure (.instanceOf x.tree target)
  | .cast note target operand => role.plain note do
    let x ← operand.operand (v.lower .value operand)
    pure (x.convertTo target).tree
  | .index note array index => role.place note do
    let ty ← array.note.needTy
    if !ty.isArray then note.excerpt.refuse (.notAnArray (v.typeName ty))
    else
      let arrayTree ← v.lower .value array
      let position ← v.intValue index (← index.operand (v.lower .value index))
      pure (.element arrayTree position)
  | .call note _ name none _ => role.plain note (note.excerpt.refuse (.unresolvedMethod name))
  | .call note qualifier _ (some m) args => role.plain note do
    let receiver ← v.lowerReceiver (!m.modifiers.isStatic) qualifier
    let object ← v.methodReceiver m receiver note.excerpt
    let operands ← v.lowerOperands args
    let trees ← v.hierarchy.arguments m operands note.excerpt
    pure (.call object m.ref trees)
  | .newInstance note c constructor outer args anonymous => role.plain note do
    if anonymous then note.excerpt.refuse .anonymousClassNotSupported
    else
      let enclosing ← v.lowerEnclosing note (v.outerOfInner? c) outer
      let operands ← v.lowerOperands args
      let trees ← v.hierarchy.arguments constructor operands note.excerpt
      pure (.newInstance c constructor.ref (enclosing ++ trees))
  | .newArray note dims (some init) => role.plain note do
    let ty ← v.createdTy note dims.length
    v.lower (.initializer ty) init
  | .newArray note [] none => role.plain note do
    let _ ← v.createdTy note 0
    note.excerpt.refuse (.unsupportedConstruct .arrayWithoutDimension)
  | .newArray note (dim :: rest) none => role.plain note do
    let ty ← v.createdTy note (rest.length + 1)
    let length ← v.intValue dim (← dim.operand (v.lower .value dim))
    pure (.newArray ty (some length) none)
  | .braces note elements =>
    match role with
    | .target => note.excerpt.refuse .notAnLvalue
    | .initializer ty => v.arrayOf note ty fun component => v.lowerElements component elements
    | .value | .receiver => do
      let ty ← note.needTy
      v.arrayOf note ty fun component => v.lowerElements component elements
  | .lambda note => role.plain note (note.excerpt.refuse (.unsupportedConstruct .lambda))
  | .methodRef note =>
    role.plain note (note.excerpt.refuse (.unsupportedConstruct .methodReference))

/-- The object written in front of a member, if it is needed. -/
def lowerReceiver (v : View) (needed : Bool) : Option Expr → Except Fault (Option Tree)
  | some q => if needed then (v.lower .receiver q).map some else pure none
  | none => pure none

/-- The enclosing instance that comes before the arguments of an inner class: the one written in
front of the creation, or the nearest one of the outer class. Other classes take none. -/
def lowerEnclosing (v : View) (note : Note) (outerClass : Option ClassId) :
    Option Expr → Except Fault (List Tree)
  | some outer => if outerClass.isSome then (v.lower .value outer).map ([·]) else pure []
  | none =>
    match outerClass with
    | some c => (v.thisFor c note.excerpt).map ([·])
    | none => pure []

/-- Several operands, in order. -/
def lowerOperands (v : View) : List Expr → Except Fault (List Operand)
  | [] => pure []
  | e :: rest => do
    let x ← e.operand (v.lower .value e)
    let xs ← v.lowerOperands rest
    pure (x :: xs)

/-- The rest of a chain, combined step by step with what stands to the left of it. -/
def lowerRest (v : View) (start : Span) (left : Operand) :
    List Expr → List BinaryOp → Except Fault Operand
  | e :: rest, op :: ops => do
    let right ← e.operand (v.lower .value e)
    let whole ← v.combine start op left right e
    v.lowerRest start whole rest ops
  | _, _ => pure left

/-- The elements of an array with the given component type; a brace list inside stands for an array
of that type. -/
def lowerElements (v : View) (component : Ty) : List Expr → Except Fault (List Tree)
  | [] => pure []
  | e :: rest => do
    let tree ← e.stored component (v.lower (e.storedRole component) e)
    let trees ← v.lowerElements component rest
    pure (tree :: trees)

end

/-- The operand that an expression compiles to. -/
def lowerOperand (v : View) (e : Expr) : Except Fault Operand := e.operand (v.lower .value e)

/-- The tree of a condition. -/
def lowerCondition (v : View) (e : Expr) : Except Fault Tree := do
  v.condition e (← v.lowerOperand e)

/-- The initial value of a place of type `ty`. -/
def lowerInitial (v : View) (ty : Ty) (e : Expr) : Except Fault Tree :=
  e.stored ty (v.lower (e.storedRole ty) e)

end View

end Breakpoint
