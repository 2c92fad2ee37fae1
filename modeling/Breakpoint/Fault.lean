import Breakpoint.Stmt

/-! Refusals. A fault is a cause together with the excerpt it blames. The cause alone fixes the
category and the message key; the message also mentions the excerpt. -/

namespace Breakpoint

/-- What cannot be compiled at all. -/
inductive Construct where
  | emptyChain
  | malformedChain
  | arrayWithoutDimension
  | arrayInitializer
  | lambda
  | methodReference
  | statement (kind : Unsupported)
deriving DecidableEq, Repr

/-- The words for a construct in a message. -/
def Construct.description : Construct → String
  | emptyChain => "empty operator chain"
  | malformedChain => "malformed operator chain"
  | arrayWithoutDimension => "array creation without dimension"
  | arrayInitializer => "array initializer"
  | lambda => "lambda expression"
  | methodReference => "method reference"
  | statement .foreach => "enhanced for loop"
  | statement .switch => "switch statement"
  | statement .tryCatch => "try statement"
  | statement .synchronized => "synchronized statement"
  | statement .assertion => "assert statement"
  | statement .localClass => "local class declaration"

/-- The operators that take a single operand. -/
inductive SoleOp where
  | unary (op : UnaryOp)
  | step (op : StepOp)
  | instanceOf
deriving DecidableEq, Repr

/-- The spelling of an operator. -/
def SoleOp.symbol : SoleOp → String
  | unary op => op.symbol
  | step op => op.symbol
  | instanceOf => "instanceof"

/-- Why something was refused. Types and classes are given by their spelling. -/
inductive Cause where
  | unsupportedConstruct (construct : Construct)
  | arrayDimensionsNotSupported
  | anonymousClassNotSupported
  | operationNotSupported (op : AssignOp)
  | declarationOutsideFragment
  | variableRedeclaration (name : String)
  | notAnLvalue
  | superNotAValue
  | breakOutsideLoop
  | continueOutsideLoop
  | undefinedLabel (label : String)
  | notALoopLabel (label : String)
  | invalidLabelTarget (label : String)
  | missingType
  | incompatibleOperands (op : BinaryOp) (left right : String)
  | incompatibleOperand (op : SoleOp) (operand : String)
  | notAnArray (found : String)
  | incompatibleTypes (source target : String)
  | unresolvedSymbol (name : String)
  | unresolvedMethod (name : String)
  | thisNotAvailable
  | noEnclosingInstance (className : String)
  | localNotAccessible (name : String)
deriving DecidableEq, Repr

/-- The broad classes of refusals. -/
inductive Category where
  /-- A construct that the compiled tree cannot express. -/
  | structural
  /-- A missing or unfitting static type. -/
  | type
  /-- A declaration that cannot be reached from the suspended position. -/
  | resolution
deriving DecidableEq, Repr

/-- The word for a category. -/
def Category.word : Category → String
  | structural => "structural"
  | type => "type"
  | resolution => "resolution"

namespace Cause

/-- The category of a cause. -/
def category : Cause → Category
  | unsupportedConstruct _ | arrayDimensionsNotSupported | anonymousClassNotSupported
  | operationNotSupported _ | declarationOutsideFragment | variableRedeclaration _ | notAnLvalue
  | superNotAValue | breakOutsideLoop | continueOutsideLoop | undefinedLabel _ | notALoopLabel _
  | invalidLabelTarget _ => .structural
  | missingType | incompatibleOperands .. | incompatibleOperand .. | notAnArray _
  | incompatibleTypes .. => .type
  | unresolvedSymbol _ | unresolvedMethod _ | thisNotAvailable | noEnclosingInstance _
  | localNotAccessible _ => .resolution

/-- The last part of the message key. -/
def keySuffix : Cause → String
  | unsupportedConstruct _ => "construct.not.supported"
  | arrayDimensionsNotSupported => "array.dimensions.not.supported"
  | anonymousClassNotSupported => "anonymous.class.evaluation.not.supported"
  | operationNotSupported _ => "operation.not.supported"
  | declarationOutsideFragment => "local.variable.declarations.not.supported"
  | variableRedeclaration _ => "variable.already.declared"
  | notAnLvalue => "not.lvalue"
  | superNotAValue => "super.not.value"
  | breakOutsideLoop => "break.outside.loop"
  | continueOutsideLoop => "continue.outside.loop"
  | undefinedLabel _ => "undefined.label"
  | notALoopLabel _ => "not.loop.label"
  | invalidLabelTarget _ => "invalid.label.target"
  | missingType => "unknown.expression.type"
  | incompatibleOperands .. => "incompatible.operand.types"
  | incompatibleOperand .. => "incompatible.operand.type"
  | notAnArray _ => "array.type.expected"
  | incompatibleTypes .. => "incompatible.types"
  | unresolvedSymbol _ => "cannot.resolve.symbol"
  | unresolvedMethod _ => "cannot.resolve.method"
  | thisNotAvailable => "this.not.available"
  | noEnclosingInstance _ => "outer.instance.not.found"
  | localNotAccessible _ => "local.variable.missing"

/-- A key that stays the same whatever the wording, for messages in other languages. -/
def key (cause : Cause) : String := "evaluation.error." ++ cause.keySuffix

/-- The wording of a cause for source text `text`. -/
def wording (text : String) : Cause → String
  | unsupportedConstruct construct =>
    construct.description ++ " is not supported in evaluation: '" ++ text ++ "'"
  | arrayDimensionsNotSupported =>
    "multi-dimensional array creation is not supported: '" ++ text ++ "'"
  | anonymousClassNotSupported => "anonymous class creation is not supported: '" ++ text ++ "'"
  | operationNotSupported op => "operator '" ++ op.symbol ++ "' is not supported: '" ++ text ++ "'"
  | declarationOutsideFragment =>
    "local variable declarations are only allowed in code fragments: '" ++ text ++ "'"
  | variableRedeclaration name => "variable '" ++ name ++ "' is already declared in this scope"
  | notAnLvalue => "'" ++ text ++ "' cannot be assigned to"
  | superNotAValue => "'super' can only qualify a member access: '" ++ text ++ "'"
  | breakOutsideLoop => "'break' outside of a loop"
  | continueOutsideLoop => "'continue' outside of a loop"
  | undefinedLabel label => "undefined label '" ++ label ++ "'"
  | notALoopLabel label => "label '" ++ label ++ "' does not denote a loop"
  | invalidLabelTarget label => "label '" ++ label ++ "' must precede a loop or if statement"
  | missingType => "cannot determine the type of '" ++ text ++ "'"
  | incompatibleOperands op left right =>
    "operator '" ++ op.symbol ++ "' cannot be applied to " ++ left ++ ", " ++ right
  | incompatibleOperand op operand =>
    "operator '" ++ op.symbol ++ "' cannot be applied to " ++ operand
  | notAnArray found => "array type expected, found " ++ found
  | incompatibleTypes source target =>
    "incompatible types: " ++ source ++ " cannot be converted to " ++ target
  | unresolvedSymbol name => "cannot resolve symbol '" ++ name ++ "'"
  | unresolvedMethod name => "cannot resolve method '" ++ name ++ "'"
  | thisNotAvailable => "'this' is not available in a static context: '" ++ text ++ "'"
  | noEnclosingInstance className =>
    "no enclosing instance of type " ++ className ++ " is in scope"
  | localNotAccessible name => "local variable '" ++ name ++ "' is not accessible from here"

end Cause

/-- A refusal. -/
structure Fault where
  cause : Cause
  excerpt : Excerpt
deriving DecidableEq, Repr

namespace Fault

/-- The place and the wording. -/
def message (fault : Fault) : String :=
  "at " ++ fault.excerpt.span.render ++ ": " ++ fault.cause.wording fault.excerpt.text

/-- The category and the message. -/
def render (fault : Fault) : String :=
  fault.cause.category.word ++ " error: " ++ fault.message

end Fault

/-- Refuses with `cause`, blaming `excerpt`. -/
def Excerpt.refuse {α : Type} (excerpt : Excerpt) (cause : Cause) : Except Fault α :=
  .error ⟨cause, excerpt⟩

end Breakpoint
