import Patchbay.Proofs.Evaluation.Regimes

/-!
# Starting sessions

A session starts with a heap that has the root frame, which is pinned and binds the builtins. What
all of this keeps holds of the heap that a session starts with.
-/

namespace Patchbay

variable {H : HostTypes}

namespace Regime

variable {R : Regime H}

/-- What is done to the heap when a session starts keeps what holds of it. -/
structure Starts (R : Regime H) : Prop where
  root : ∀ dir, R.Keeps (HeapM.alloc (.frame (.root dir)))
  pin : ∀ root, R.Keeps (Heap.pin root)
  intern : ∀ text, R.Keeps (Heap.internName text)
  builtin : ∀ name b, R.Keeps (HeapM.allocValue (.callable (.builtin name b)))
  define : ∀ root name v, R.Keeps (Heap.define root name v)

lemma Starts.bindBuiltins (hR : R.Starts) (bs : List Builtin) (root : ObjectId) :
    R.Keeps (bs.forM fun b => do
      let name ← Heap.internName b.reservedName
      let f ← HeapM.allocValue (.callable (.builtin name b))
      Heap.define root name f) := by
  induction bs with
  | nil => exact keeps_pure
  | cons b rest ih =>
    have hbind := (hR.intern b.reservedName).bind fun name => (hR.builtin name b).bind fun f =>
      hR.define root name f
    exact hbind.bind fun _ => ih

lemma Starts.rootFrame (hR : R.Starts) (dir : Option Path) : R.Keeps (rootFrame dir) :=
  (hR.root dir).bind fun root => (hR.pin root).bind fun _ =>
    (hR.bindBuiltins Builtin.all root).bind fun _ => keeps_pure

end Regime

open Regime

/-- What holds of a new heap and is kept holds of the heap that a session starts with. -/
theorem Setup.holds_start {R : Regime H} {setup : Setup H} {env : Environment H} {s : Session H}
    (hR : R.Starts) (hnew : R.Holds (Heap.new setup.names setup.config.gcThreshold))
    (hstart : setup.start = .ok (env, s)) : R.Holds s.heap := by
  have hbuild := ((hR.rootFrame setup.config.rootDir).bind fun root =>
    (hR.intern Builtin.binaryOp.reservedName).bind fun binaryOp =>
      (hR.intern Builtin.unaryOp.reservedName).bind fun unaryOp =>
        (hR.intern Builtin.index.reservedName).bind fun index =>
          keeps_pure (a := (root, (⟨binaryOp, unaryOp, index⟩ : ReservedNames)))) _ hnew
  unfold HeapM.Ends at hbuild
  unfold Setup.start at hstart
  dsimp only at hstart
  split at hstart
  · next root reserved h hrun =>
    rw [hrun] at hbuild
    cases hstart
    exact hbuild
  · cases hstart

end Patchbay
