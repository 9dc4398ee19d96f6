import Patchbay.Eval.Run
import Patchbay.Host.Stock
import Patchbay.Proofs.Heap.Collection
import Patchbay.Proofs.Heap.Generations
import Patchbay.Proofs.Safety.Programs
import Patchbay.Proofs.Lifting.Signals
import Patchbay.Proofs.Heap.Connections
import Patchbay.Proofs.Heap.Locality
import Patchbay.Proofs.Heap.Handles
import Patchbay.Proofs.Scopes.Assignment
import Patchbay.Proofs.Balance.Sessions
import Patchbay.Proofs.Balance.Rules
import Patchbay.Proofs.Balance.Evaluator
import Patchbay.Proofs.Heap.Atomicity
import Patchbay.Proofs.Heap.Independence
import Patchbay.Proofs.Evaluation.Regimes
import Patchbay.Proofs.Evaluation.Reports
import Patchbay.Proofs.Evaluation.Limits
import Patchbay.Proofs.Evaluation.Loopless
import Patchbay.Proofs.Evaluation.Termination
import Patchbay.Proofs.Arguments
import Patchbay.Proofs.Courses.Extension
import Patchbay.Proofs.Courses.OperatorGraphs
import Patchbay.Proofs.Arithmetic
import Patchbay.Proofs.Heap.Barrier
import Patchbay.Proofs.Heap.Ticks
import Patchbay.Proofs.Conversions
import Patchbay.Proofs.Order
import Patchbay.Proofs.Grids
import Patchbay.Proofs.Heap.Indexing
import Patchbay.Proofs.Offsets
import Patchbay.Proofs.ArrayLiterals
import Patchbay.Proofs.Heap.Tables
import Patchbay.Proofs.Scopes.Sessions
import Patchbay.Proofs.Interning
import Patchbay.Proofs.Unwinding.Programs
