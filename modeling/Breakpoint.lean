import Breakpoint.Compile
import Breakpoint.Expr.Same
import Breakpoint.Tree.Nodes
import Breakpoint.Tree.Render
import Breakpoint.Tree.Same
import Breakpoint.Proofs.Conversion
import Breakpoint.Proofs.Expression
import Breakpoint.Proofs.ExprRules
import Breakpoint.Proofs.Typing
import Breakpoint.Proofs.StmtRules
import Breakpoint.Proofs.Statement
import Breakpoint.Proofs.Reach
import Breakpoint.Proofs.Event
import Breakpoint.Proofs.Tables
import Breakpoint.Proofs.Trace
import Breakpoint.Proofs.Landing
import Breakpoint.Proofs.Scoping
import Breakpoint.Proofs.SymbolTables
import Breakpoint.Proofs.Restoration
import Breakpoint.Proofs.Grammar
import Breakpoint.Proofs.Placement
import Breakpoint.Proofs.Likeness
import Breakpoint.Proofs.Correspondence
import Breakpoint.Proofs.Copies
import Breakpoint.Proofs.Agreement
import Breakpoint.Proofs.Widening
import Breakpoint.Proofs.Embedding
import Breakpoint.Proofs.Lockstep
import Breakpoint.Proofs.Replacement
import Breakpoint.Proofs.Deferral
import Breakpoint.Proofs.Inlining
import Breakpoint.Proofs.Parentheses
import Breakpoint.Proofs.Outside
import Breakpoint.Proofs.Blame
import Breakpoint.Proofs.Supported
import Breakpoint.Proofs.Respelling
import Breakpoint.Proofs.Equivariance
import Breakpoint.Proofs.Spelling
import Breakpoint.Proofs.Sameness
import Breakpoint.Proofs.OperandRules
import Breakpoint.Proofs.Idempotence
import Breakpoint.Proofs.Inheritance
import Breakpoint.Proofs.Assignability
import Breakpoint.Proofs.Hops
import Breakpoint.Proofs.Search
import Breakpoint.Proofs.Enclosing
import Breakpoint.Proofs.Captured
import Breakpoint.Proofs.Arity
import Breakpoint.Proofs.Members
import Breakpoint.Proofs.Initializers
import Breakpoint.Proofs.Flattening
import Breakpoint.Proofs.Stepping
import Breakpoint.Proofs.Atoms
import Breakpoint.Proofs.Reading
import Breakpoint.Proofs.Unambiguous
