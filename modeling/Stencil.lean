import Stencil.Renderer
import Stencil.Loader.Store
import Stencil.Trace.Recording
import Stencil.Trace.Profile
import Stencil.Trace.Log
import Stencil.Bytecode.Listing
import Stencil.Bytecode.Assembly
import Stencil.Tree.Stored
import Stencil.Value.Stored
import Stencil.Proofs.Numbering
import Stencil.Proofs.Extent
import Stencil.Proofs.Validity
import Stencil.Proofs.Evaluation
import Stencil.Proofs.ExprCode
import Stencil.Proofs.Nesting
import Stencil.Proofs.Reading
import Stencil.Proofs.StmtCode
import Stencil.Proofs.Policy
import Stencil.Proofs.Conduct
import Stencil.Proofs.Correctness
import Stencil.Proofs.Escaping
import Stencil.Proofs.Discipline
import Stencil.Proofs.Termination
import Stencil.Proofs.Operands
import Stencil.Proofs.Storage
import Stencil.Proofs.Control
import Stencil.Proofs.Acceptance
import Stencil.Proofs.Chains
import Stencil.Proofs.Variables
import Stencil.Proofs.Inlining
import Stencil.Proofs.Summaries
import Stencil.Proofs.Brackets
import Stencil.Proofs.Answers
import Stencil.Proofs.Registry
import Stencil.Proofs.Paths
import Stencil.Proofs.Caching
import Stencil.Proofs.Logging
import Stencil.Proofs.Conversions
import Stencil.Proofs.Formats
import Stencil.Proofs.Fields
import Stencil.Proofs.Markup
import Stencil.Proofs.Forms
import Stencil.Proofs.Doubles
import Stencil.Proofs.Rounding
import Stencil.Proofs.Ordering
import Stencil.Proofs.Literals
import Stencil.Proofs.Equality
import Stencil.Proofs.Arithmetic
import Stencil.Proofs.Assembling
import Stencil.Proofs.Accounts
import Stencil.Proofs.Interning
import Stencil.Proofs.Magnitudes
import Stencil.Proofs.Positional
import Stencil.Proofs.Printing
import Stencil.Proofs.Trees
import Stencil.Proofs.Destinations
import Stencil.Proofs.OnePass
