import Patchbay.Proofs.Evaluation.Limits
import Patchbay.Proofs.Evaluation.Loopless
import Patchbay.Proofs.Evaluation.Starting
import Patchbay.Proofs.Scopes.Settled

/-!
# Termination

Only counted loops can run for ever. Every other nesting of evaluations counts against the depth
limit, and so do calls of functions and scripts that load each other; a block and a loop over values
go through a list that is there when they start. So with loops that end at once, one unit of fuel
for each level of nesting is enough, on heaps from which evaluations come back wherever they look.
Sessions start on such heaps, and evaluations leave them so unless code of the host does not.
-/

namespace Patchbay

variable {H : HostTypes} {α : Type} {env : Environment H} {c : Cursor} {s : Session H}
  {program : Program} {fuel depth : Nat}

/-- Functions and factories of the host leave settled heaps settled: a frame that they store is in a
live one, they take no frame away that another one is in, and an array that they store has an
element for each of its coordinates. -/
structure Environment.Settles (env : Environment H) : Prop where
  call : ∀ fn args (h : Heap H), h.Settled →
    (env.host.call fn args).Ends h (fun _ => Heap.Settled) fun _ => Heap.Settled
  function : ∀ p ∈ env.plugins.functions, ∀ request (h : Heap H), h.Settled →
    (p.factory request).Ends h (fun _ => Heap.Settled) fun _ => Heap.Settled

namespace Regime

/-- Evaluations on settled heaps are compared with themselves; if `ends`, to say that they end. -/
def settling (ends : Bool) : Regime H where
  Holds := Heap.Settled
  loops := True
  Repeats _ := False
  stall := if ends then .never else .anything
  strict := by cases ends <;> nofun

variable {ends : Bool}

/-! ## Settled heaps -/

lemma Reports.exists_ok {o : Outcome (Session H) RunReport} (hr : (settling true).Reports o o) :
    ∃ report t, o = .ok report t := by
  cases hr with
  | ok _ _ => exact ⟨_, _, rfl⟩
  | outOfFuel hs => exact hs.elim

end Regime

open Regime

end Patchbay
