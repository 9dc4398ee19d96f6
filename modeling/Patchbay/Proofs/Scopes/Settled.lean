import Patchbay.Proofs.Evaluation.ComingBack
import Patchbay.Proofs.Scopes.Chains
import Patchbay.Proofs.Stacking

/-!
# Settled heaps

On a settled heap every frame is in a live one, parents lead to an end, and every array has an
element for each of its coordinates. So evaluations come back from wherever they look. Whatever they
do themselves leaves the heap settled: a new frame is made in a live one, a new array is stacked
from arrays of the heap, writes change neither parents nor shapes, and a collection that keeps a
frame keeps the one around it.
-/

namespace Patchbay

variable {H : HostTypes}

/-- Whether an operation takes nothing out by itself, stores a frame in a live one only, and an
array with an element for each of its coordinates. -/
def Operation.Settles (h : Heap H) : Operation H → Prop
  | alloc o => (∀ p, (alloc o).parent? = some p → h.contains p = true) ∧ ∀ g, o = .grid g → g.Exact
  | remove _ => False
  | _ => True

namespace Heap

variable {h h' : Heap H} {x p frame : ObjectId} {o : HeapObject H} {op : Operation H}

/-- What evaluations rely on to come back. -/
structure Settled (h : Heap H) : Prop where
  tidy : Tidy h
  /-- The frame around a live frame is live. -/
  nested : ∀ x p, h.parent? x = some p → h.contains p = true
  wellFounded : WellFounded fun p x => h.parent? x = some p
  exact : ∀ x g, h.object? x = some (.grid g) → g.Exact

namespace Settled

lemma ancestral (hs : h.Settled) : Ancestral False h where
  issued x p hp := issued_of_contains (hs.nested x p hp)
  frame hstrict := hstrict.elim
  wellFounded := hs.wellFounded

/-- Every object was there before, in the same frame and as large, and the frames around frames are
still there. -/
lemma thinned (hs : h.Settled) (ht : Tidy h') (hthin : Thinned h h')
    (hlive : ∀ x p, h'.parent? x = some p → h'.contains p = true) : h'.Settled where
  tidy := ht
  nested := hlive
  wellFounded := Subrelation.wf (fun {_ _} hp => hthin.parent? hp) hs.wellFounded
  exact x g' hg' := by
    obtain ⟨o, ho, -, -, hextents⟩ := hthin x _ hg'
    cases o with
    | grid g =>
      have hexact := hs.exact x g ho
      obtain ⟨hdims, hsize⟩ : g'.dims = g.dims ∧ g'.items.size = g.items.size :=
        Prod.mk.inj (Option.some.inj hextents)
      exact ⟨by rw [hdims, hsize, hexact.prod], hsize ▸ hexact.word⟩
    | _ => cases hextents

lemma names (hs : h.Settled) (names : Interner) : Settled { h with names := names } :=
  ⟨(sameSlots_names names).tidy hs.tidy, hs.nested, hs.wellFounded, hs.exact⟩

/-- A frame that can be reached leads on to the one around it. -/
lemma contains_parent_collect (hs : h.Settled) {bound : UInt8} {extra : List ObjectId}
    (hp : (h.collect bound extra).2.parent? x = some p) :
    (h.collect bound extra).2.contains p = true := by
  have hreached := contains_collect.mp (contains_of_parent? hp)
  have hbefore := thinned_collect.parent? hp
  obtain ⟨f, hf, hparent⟩ := parent?_eq_some.mp hbefore
  have hchild : p ∈ (HeapObject.frame f : HeapObject H).children :=
    HeapObject.mem_children.mpr (.inr (.inl hparent))
  exact contains_collect.mpr (hreached.child hf hchild (hs.nested x p hbefore))

/-! ## New objects -/

/-- A new frame is in a live one, and the new handle is nobody's parent. -/
lemma alloc (hs : h.Settled)
    (hparent : ∀ p, (Operation.alloc o).parent? = some p → h.contains p = true)
    (hgrid : ∀ g, o = .grid g → g.Exact) : (h.alloc o).2.Settled where
  tidy := hs.tidy.alloc o
  nested x p hp := by
    refine (contains_alloc hs.tidy).mpr (.inr ?_)
    rcases parent?_alloc hs.tidy hp with ⟨-, hnew⟩ | ⟨-, hold⟩
    · exact hparent p hnew
    · exact hs.nested x p hold
  wellFounded := by
    have hn : (Operation.alloc o).Nests False h := fun p hp =>
      ⟨issued_of_contains (hparent p hp), False.elim⟩
    exact (hs.ancestral.alloc hs.tidy hn).wellFounded
  exact x g hg := by
    rcases object?_alloc_or hg with hnew | hold
    · exact hgrid g hnew.symm
    · exact hs.exact x g hold

/-! ## Operations -/

/-- An operation that takes nothing out, and stores what it may, leaves the heap settled. -/
lemma effect (hs : h.Settled) (he : Effect op h h') (hop : op.Settles h) : h'.Settled := by
  rcases he.thinned with hthin | ⟨o, rfl, rfl⟩
  · refine hs.thinned (hs.tidy.effect he) hthin fun x p hp => ?_
    have hlive := hs.nested x p (hthin.parent? hp)
    cases he with
    | write hw => exact hw.contains.trans hlive
    | alloc o h => exact (contains_alloc hs.tidy).mpr (.inr hlive)
    | remove ho => exact hop.elim
    | unplug hi => exact rewired_unplug.contains.trans hlive
    | connect hi ho => exact (rewired_unplug.trans rewired_plug).contains.trans hlive
    | pin hc => exact contains_modifyEntry.trans hlive
    | unpin id h => exact contains_modifyEntry.trans hlive
    | collect bound extra h => exact hs.contains_parent_collect hp
  · exact hs.alloc hop.1 hop.2

lemma after {host : KernelHost H} (hs : h.Settled) (hop : op.Settles h) :
    (op.after host h).Settled :=
  hs.effect (effect_after host op h) hop

lemma childFrame (hs : h.Settled) {adjust : Frame → Frame}
    (hadjust : ∀ f, (adjust f).parent = f.parent) :
    (Heap.childFrame frame adjust).Ends h (fun _ => Settled) fun _ => Settled := by
  refine HeapM.ends_read_bind (fun f hf => ?_) fun _ _ => hs
  refine hs.alloc (fun p hp => ?_) nofun
  obtain rfl : frame = p := Option.some.inj ((hadjust _).symm.trans hp)
  exact contains_of_object? (frame_eq_ok.mp hf)

end Settled

end Heap

end Patchbay
