import Patchbay.Eval.Call
import Patchbay.Proofs.Lifting.Operators

/-!
# What names mean

A name that is bound in a frame, or in one around it, means the value of its nearest binding as long
as no nearer frame finds anything on demand. Looking it up changes nothing. Since evaluations that
only make nodes leave frames alone, a name keeps its meaning.
-/

namespace Patchbay

variable {H : HostTypes} {env : Environment H} {self : Runner H} {c : Cursor} {s s' b : Session H}
  {h h' : Heap H} {frame id : ObjectId} {name : Name} {v : Value} {f : Frame} {loading : List Path}
  {moved : ObjectId → Prop}

/-- A frame that resolves names on demand has nothing for a name: no subdirectory, no plugin, and no
script that is not being loaded already. -/
structure Resolve.Misses (env : Environment H) (h : Heap H) (loading : List Path) (frame : ObjectId)
    (f : Frame) (name : Name) : Prop where
  subdirectory : subdirectory? env f.path (h.names.lookup name) = none
  function : env.plugins.function? (h.names.lookup name) f.path (frame = env.root) = none
  node : env.plugins.node? (h.names.lookup name) f.path (frame = env.root) = none
  script : ∀ dir, f.path = some dir → ∀ loader, env.loader = some loader →
    let path := dir.join ⟨h.names.lookup name ++ "." ++ env.config.scriptExtension⟩
    env.tree.isFile path = true → loading.any path.same = true

/-- What a name means along a row of frames: the value of the first binding, where the frames before
it have nothing for the name. -/
inductive Means (env : Environment H) (h : Heap H) (loading : List Path) (name : Name) (v : Value) :
    List ObjectId → Prop where
  | here {x rest f} : h.object? x = some (.frame f) → f.get? name = some v →
      Means env h loading name v (x :: rest)
  | outer {x rest f} : h.object? x = some (.frame f) → f.get? name = none →
      ((f.path.isSome || x = env.root) = true → Resolve.Misses env h loading x f name) →
      Means env h loading name v rest → Means env h loading name v (x :: rest)

/-- What a name means in a frame of a session. -/
def Session.Means (env : Environment H) (s : Session H) (frame : ObjectId) (name : Name)
    (v : Value) : Prop :=
  Patchbay.Means env s.heap s.loading name v (s.heap.lineage frame)

/-- A name means a builtin in a frame of a session. -/
def Session.MeansBuiltin (env : Environment H) (s : Session H) (frame : ObjectId) (name : Name)
    (b : Builtin) : Prop :=
  ∃ id f, s.Means env frame name (.function id) ∧ s.heap.object? id = some (.callable f) ∧
    f.body = .builtin b

/-! ## Looking up -/

lemma script_eq_none (hm : Resolve.Misses env s.heap s.loading frame f name) {dir : Path}
    (hdir : f.path = some dir) :
    Resolve.script env self frame name (s.heap.names.lookup name) dir s = .ok none s := by
  unfold Resolve.script
  cases hloader : env.loader with
  | none => cases env.tree.isFile _ <;> rfl
  | some loader =>
    cases hfile : env.tree.isFile _ with
    | false => rfl
    | true =>
      change Resolve.whileLoading _ _ s = _
      unfold Resolve.whileLoading
      rw [Eval.bind_of_ok (show Eval.get s = .ok s s from rfl),
        if_pos (hm.script dir hdir loader hloader hfile)]
      rfl

lemma find_eq_none (hf : s.heap.object? frame = some (.frame f))
    (hm : Resolve.Misses env s.heap s.loading frame f name) :
    Resolve.find env self frame name s = .ok none s := by
  have hframe : Eval.readHeap (·.frame frame) s = .ok f s :=
    Eval.readHeap_of_ok (Heap.frame_eq_ok.mpr hf)
  unfold Resolve.find
  rw [Eval.bind_of_ok (show Eval.nameText name s = .ok (s.heap.names.lookup name) s from rfl),
    Eval.bind_of_ok hframe, hm.subdirectory, hm.function, hm.node]
  cases hdir : f.path with
  | none => rfl
  | some dir => exact script_eq_none hm hdir

lemma lookupIn_eq (hf : s.heap.object? frame = some (.frame f)) (hget : f.get? name = none)
    (hm : (f.path.isSome || frame = env.root) = true →
      Resolve.Misses env s.heap s.loading frame f name) :
    lookupIn env self frame name s = .ok none s := by
  have hframe : Eval.readHeap (·.frame frame) s = .ok f s :=
    Eval.readHeap_of_ok (Heap.frame_eq_ok.mpr hf)
  unfold lookupIn
  rw [Eval.bind_of_ok hframe, hget]
  change (if (f.path.isSome || frame = env.root) = true then resolve env self frame name
    else return none : Eval H (Option Value)) s = _
  by_cases hdemand : (f.path.isSome || frame = env.root) = true
  · rw [if_pos hdemand]
    unfold resolve
    rw [Eval.bind_of_ok (find_eq_none hf (hm hdemand))]
    rfl
  · rw [if_neg hdemand]
    rfl

lemma lookupAlong_eq {ids : List ObjectId} (hm : Means env s.heap s.loading name v ids) :
    lookupAlong env self frame name ids s = .ok v s := by
  induction hm with
  | @here x rest f hf hget =>
    have hframe : Eval.readHeap (·.frame x) s = .ok f s :=
      Eval.readHeap_of_ok (Heap.frame_eq_ok.mpr hf)
    have hin : lookupIn env self x name s = .ok (some v) s := by
      unfold lookupIn
      rw [Eval.bind_of_ok hframe, hget]
      rfl
    unfold lookupAlong
    rw [Eval.bind_of_ok hin]
    rfl
  | outer hf hget hmiss _ ih =>
    unfold lookupAlong
    rw [Eval.bind_of_ok (lookupIn_eq hf hget hmiss)]
    exact ih

/-- Looking up a name that has a meaning gives it, and changes nothing. -/
lemma lookup_eq (hm : s.Means env frame name v) : lookup env self frame name s = .ok v s := by
  unfold lookup
  rw [Eval.bind_of_ok (show Eval.get s = .ok s s from rfl)]
  exact lookupAlong_eq hm

/-! ## Computing meanings -/

/-- What a name means along a row of frames, where it is bound before a frame that would resolve it
on demand. -/
def boundAlong? (env : Environment H) (h : Heap H) (name : Name) : List ObjectId → Option Value
  | [] => none
  | x :: rest =>
    match h.frame x with
    | .error _ => none
    | .ok f =>
      match f.get? name with
      | some v => some v
      | none => if f.path.isSome || x = env.root then none else boundAlong? env h name rest

lemma means_of_boundAlong {ids : List ObjectId} (hb : boundAlong? env h name ids = some v) :
    Means env h loading name v ids := by
  induction ids with
  | nil => cases hb
  | cons x rest ih =>
    unfold boundAlong? at hb
    cases hf : h.frame x with
    | error e =>
      rw [hf] at hb
      cases hb
    | ok f =>
      rw [hf] at hb
      dsimp only at hb
      cases hget : f.get? name with
      | some w =>
        rw [hget] at hb
        cases hb
        exact .here (Heap.frame_eq_ok.mp hf) hget
      | none =>
        rw [hget] at hb
        dsimp only at hb
        -- `boundAlong?` gives up at a frame that could load the name, and looks past any other
        by_cases hdemand : (f.path.isSome || x = env.root) = true
        · rw [if_pos hdemand] at hb
          cases hb
        · rw [if_neg hdemand] at hb
          exact .outer (Heap.frame_eq_ok.mp hf) hget (fun hd => absurd hd hdemand) (ih hb)

/-- What a name is bound to in a frame of a session, or in one around it. -/
def Session.bound? (env : Environment H) (s : Session H) (frame : ObjectId) (name : Name) :
    Option Value :=
  boundAlong? env s.heap name (s.heap.lineage frame)

/-- The builtin that a name is bound to. -/
def Session.builtin? (env : Environment H) (s : Session H) (frame : ObjectId) (name : Name) :
    Option Builtin :=
  match s.bound? env frame name with
  | some (.function id) =>
    match s.heap.callable id with
    | .ok f =>
      match f.body with
      | .builtin b => some b
      | _ => none
    | .error _ => none
  | _ => none

lemma Session.MeansBuiltin.of_builtin {b : Builtin} (hb : s.builtin? env frame name = some b) :
    s.MeansBuiltin env frame name b := by
  unfold Session.builtin? at hb
  split at hb
  · next id hbound =>
    split at hb
    · next f hf =>
      split at hb
      · next hbody =>
        cases hb
        exact ⟨id, f, means_of_boundAlong hbound, Heap.callable_eq_ok.mp hf, hbody⟩
      · cases hb
    · cases hb
  · cases hb

/-! ## Keeping meanings -/

lemma Resolve.Misses.keeps (hm : Resolve.Misses env h loading frame f name)
    (hk : Heap.Keeps moved h h') : Resolve.Misses env h' loading frame f name := by
  obtain ⟨hsub, hfunction, hnode, hscript⟩ := hm
  rw [← hk.names] at hsub hfunction hnode hscript
  exact ⟨hsub, hfunction, hnode, hscript⟩

lemma Means.keeps {ids ids' : List ObjectId} (hm : Means env h loading name v ids)
    (hk : Heap.Keeps moved h h') (hpre : ids <+: ids') : Means env h' loading name v ids' := by
  induction hm generalizing ids' with
  | here hf hget =>
    obtain ⟨rest', rfl⟩ := hpre
    exact .here (hk.object hf nofun) hget
  | outer hf hget hmiss _ ih =>
    obtain ⟨rest', rfl⟩ := hpre
    exact .outer (hk.object hf nofun) hget (fun hd => (hmiss hd).keeps hk)
      (ih (List.prefix_append _ _))

lemma Means.valid {T : Trust H} {ids : List ObjectId} (hm : Means env h loading name v ids)
    (hs : Heap.Sound T h) : v.ValidIn h := by
  induction hm with
  | here hf hget => exact Heap.valid_get hs hf hget
  | outer _ _ _ _ ih => exact ih

lemma Heap.Keeps.parent (hk : Heap.Keeps moved h h') {parent : ObjectId}
    (hp : h.parent? id = some parent) : h'.parent? id = some parent := by
  unfold Heap.parent? at hp ⊢
  cases hf : h.frame id with
  | ok f =>
    rw [hf] at hp
    rw [Heap.frame_eq_ok.mpr (hk.object (Heap.frame_eq_ok.mp hf) nofun)]
    exact hp
  | error e =>
    rw [hf] at hp
    cases hp

lemma lineageOf_head (h : Heap H) (fuel : Nat) (id : ObjectId) : [id] <+: h.lineageOf fuel id := by
  cases fuel with
  | zero => exact List.prefix_rfl
  | succ fuel =>
    unfold Heap.lineageOf
    split
    · exact List.prefix_append [id] _
    · exact List.prefix_rfl

lemma lineageOf_grows (hk : Heap.Keeps moved h h') {fuel fuel' : Nat} (hle : fuel ≤ fuel') :
    h.lineageOf fuel id <+: h'.lineageOf fuel' id := by
  induction fuel generalizing fuel' id with
  | zero => exact lineageOf_head h' fuel' id
  | succ fuel ih =>
    cases hp : h.parent? id with
    | none =>
      rw [Heap.lineageOf, hp]
      exact lineageOf_head h' fuel' id
    | some parent =>
      obtain ⟨fuel', rfl⟩ : ∃ k, fuel' = k + 1 := ⟨fuel' - 1, by omega⟩
      rw [Heap.lineageOf, hp, Heap.lineageOf, hk.parent hp]
      exact (List.prefix_cons_inj id).mpr (ih (by omega))

/-- A session in which names mean what they mean in `b`. -/
structure Steady (b s : Session H) : Prop where
  keeps : Heap.Keeps Heap.noNode b.heap s.heap
  size : b.heap.slots.size ≤ s.heap.slots.size
  loading : s.loading = b.loading

lemma Steady.grew (hs : Steady b s) (hg : s.Grew s') : Steady b s' where
  keeps := (hs.keeps.trans hg.heap.keeps).mono fun _ _ hx => hx.elim id id
  size := hs.size.trans hg.heap.size
  loading := hg.loading.trans hs.loading

lemma Steady.means (hs : Steady b s) (hm : b.Means env frame name v) :
    s.Means env frame name v := by
  unfold Session.Means
  rw [hs.loading]
  exact Means.keeps hm hs.keeps (lineageOf_grows hs.keeps hs.size)

lemma Steady.meansBuiltin (hs : Steady b s) {builtin : Builtin}
    (hm : b.MeansBuiltin env frame name builtin) : s.MeansBuiltin env frame name builtin := by
  obtain ⟨id, f, hname, hf, hbody⟩ := hm
  exact ⟨id, f, hs.means hname, hs.keeps.object hf nofun, hbody⟩

end Patchbay
