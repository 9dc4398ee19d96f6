import Patchbay.Proofs.Evaluation.Steps
import Patchbay.Proofs.Grids

/-!
# Coming back

A walk outward goes on for ever if the parents of frames go round, and indexing does not come back
if it goes past the elements of an array. Whether it comes to that can be told from the heap
beforehand. Where indexing gives a value, it has come back.
-/

namespace Patchbay

namespace Grid

variable {g : Grid} {coords : List Int}

lemma overruns_eq_false :
    g.overruns coords = false ↔ ∀ k, g.offset coords = .ok k → k < g.size := by
  unfold overruns
  cases g.offset coords <;> simp

lemma overruns_of_get {p : Primitive} (hget : g.get coords = .ok p) :
    g.overruns coords = false := by
  obtain ⟨k, hk, hitem⟩ := get_eq_ok.mp hget
  obtain ⟨hlt, -⟩ := Array.getElem?_eq_some_iff.mp hitem
  refine overruns_eq_false.mpr fun k' hk' => ?_
  cases hk.symm.trans hk'
  exact hlt

/-- Every place within the extents of an exact grid is one of its elements. -/
lemma Exact.overruns (hg : g.Exact) : g.overruns coords = false := by
  refine overruns_eq_false.mpr fun k hk => ?_
  obtain ⟨hb, rfl⟩ := hg.offset_eq_ok.mp hk
  exact hg.rowMajor_lt hb

end Grid

variable {H : HostTypes}

namespace Heap

variable {h : Heap H} {target : Value} {indices : List Value}

/-- Every walk outward comes to an end, and no indexing goes past the elements of an array. -/
structure ComesBack (h : Heap H) : Prop where
  walks : ∀ id, h.endless id = false
  arrays : ∀ target indices, h.overruns target indices = false

lemma walksOn_of_ends {stops : Frame → Bool} {id : ObjectId} (hends : h.endless id = false) :
    h.walksOn stops id = false := by
  rw [walksOn, hends, Bool.false_and]

/-- Indexing that goes past the elements is indexing of an array. -/
lemma overruns_eq_false : h.overruns target indices = false ↔ ∀ id coords g, target = .array id →
    coordinates? indices = some coords → h.grid id = .ok g → g.overruns coords = false := by
  unfold overruns
  split
  · next id coords hcoords =>
    rw [hcoords]
    cases hg : h.grid id with
    | ok g =>
      refine ⟨fun hover id' coords' g' hid hcoords' hg' => ?_, fun hall =>
        hall id coords g rfl rfl hg⟩
      cases hid
      cases hcoords'
      cases hg.symm.trans hg'
      exact hover
    | error e =>
      refine iff_of_true rfl fun id' coords' g' hid _ hg' => ?_
      cases hid
      cases hg.symm.trans hg'
  · next hother =>
      exact iff_of_true rfl fun id coords g hid hcoords _ => (hother id coords hid hcoords).elim

lemma overruns_of_index {v : Value} (hv : h.index target indices = .ok v) :
    h.overruns target indices = false := by
  refine overruns_eq_false.mpr fun id coords g hid hcoords hg => ?_
  subst hid
  simp only [index, hcoords, hg, bind_eq_ok] at hv
  obtain ⟨_, hsame, hget⟩ := hv
  cases hsame
  obtain ⟨p, hp, -⟩ := map_eq_ok.mp hget
  exact Grid.overruns_of_get hp

end Heap

/-- Indexing that comes back with a value looks it up on the heap. -/
lemma readIndex_eq_ok {stuck : Eval H Empty} {target v : Value} {indices : List Value}
    {s t : Session H} :
    readIndex stuck target indices s = .ok v t ↔ s.heap.index target indices = .ok v ∧ t = s := by
  rw [readIndex, Eval.barring_eq_ok, Eval.readHeap_eq_ok]
  exact and_iff_right_of_imp fun h => Heap.overruns_of_index h.1

end Patchbay
