import Breakpoint.Context
import Breakpoint.Operand

/-! Arguments of a call. Each argument is converted to the type of its parameter; a method of
variable arity collects its trailing arguments in a new array. -/

namespace Breakpoint

/-- The fixed parameters and the collecting one, of a method of variable arity. -/
def MethodDecl.variadic? (m : MethodDecl) : Option (List Ty × Ty) :=
  if m.varargs then m.params.getLast?.map fun last => (m.params.dropLast, last) else none

/-- Each argument, converted to the type of its parameter. -/
def assignEach (params : List Ty) (args : List Operand) : List Tree :=
  List.zipWith (fun param arg => (arg.assignTo param).tree) params args

/-- Whether the last argument is itself the array that the collecting parameter wants. -/
def Hierarchy.fitsWhole (h : Hierarchy) (collecting : Ty) (args : List Operand) : Bool :=
  args.getLast?.any fun last =>
    last.ty.isNull || (last.ty.isArray && h.isAssignable last.ty collecting)

/-- The arguments as the method receives them, as many as it has parameters. -/
def Hierarchy.arguments (h : Hierarchy) (m : MethodDecl) (args : List Operand) (excerpt : Excerpt) :
    Except Fault (List Tree) :=
  match m.variadic? with
  | none =>
    if args.length = m.params.length then .ok (assignEach m.params args)
    else excerpt.refuse (.unresolvedMethod m.name)
  | some (fixed, collecting) =>
    if args.length < fixed.length then excerpt.refuse (.unresolvedMethod m.name)
    else
      match collecting.component? with
      | none => excerpt.refuse (.unresolvedMethod m.name)
      | some component =>
        if args.length = m.params.length && h.fitsWhole collecting args then
          .ok (assignEach m.params args)
        else
          let elements := (args.drop fixed.length).map fun arg => (arg.assignTo component).tree
          .ok (assignEach fixed (args.take fixed.length) ++
            [.newArray collecting none (some elements)])

end Breakpoint
