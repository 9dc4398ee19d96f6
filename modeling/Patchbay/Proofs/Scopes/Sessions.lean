import Patchbay.Proofs.Evaluation.Starting
import Patchbay.Proofs.Scopes.Arising

/-!
# Scope chains of sessions

A session starts with a heap that arises from operations, and evaluations leave heaps that do. So
the scope chains of a session end, whatever it evaluates, and whatever frames are taken out of its
heap and stored again.
-/

namespace Patchbay

variable {H : HostTypes} {α β : Type}

/-! ## Starting -/

namespace Regime

variable {host : KernelHost H} {strict frees : Prop} {freed : Nat → Nat}

lemma keeps_internName (text : String) :
    (arising host strict frees freed).Keeps (Heap.internName text) := fun _ hh =>
  HeapM.ends_of_leaves (Heap.ArisesFrom.step hh (.intern text) (Operation.nests_of_none rfl)
    (.inr fun _ => nofun))

/-- The root frame has no parent. -/
lemma starts_arising : (arising host strict frees freed).Starts where
  root _ _ hh := Heap.ArisesFrom.alloc hh (Operation.nests_of_none rfl)
  pin root := keeps_run (.pin root) rfl fun _ => nofun
  intern := keeps_internName
  builtin name b h hh := keeps_alloc (o := .callable (.builtin name b)) nofun h hh
  define root name v := keeps_run (.define root name v) rfl fun _ => nofun

end Regime

open Heap Regime

variable {env : Environment H} {strict frees : Prop} {h : Heap H} {freed : Nat → Nat}

/-- A session starts on a heap that arises, and no slot was vacated. -/
lemma Setup.arises_start {setup : Setup H} {s : Session H} (hstart : setup.start = .ok (env, s)) :
    s.heap.Arises env.host.toKernelHost strict fun _ => 0 := by
  have hhost : env.host = setup.host := by
    unfold Setup.start at hstart
    dsimp only at hstart
    split at hstart <;> cases hstart
    rfl
  have hnew : ArisesFrom setup.host.toKernelHost strict False (fun _ => 0)
      (Heap.new setup.names setup.config.gcThreshold) := Heap.Arises.from (.new _ _)
  obtain ⟨freed, hcounts, ha⟩ := Setup.holds_start
    (R := Regime.arising setup.host.toKernelHost strict False fun _ => 0) starts_arising hnew hstart
  rw [hhost, ← hcounts.same.resolve_left id]
  exact ha

/-! ## Scope chains end -/

/-- What holds of a heap that operations lead to from an empty one if they nest frames only in
objects of the heap, `strict` or not, in which no slot was vacated so often that its stamp came
round. -/
structure Heap.ScopesLast (strict : Prop) (host : KernelHost H) (h : Heap H) (freed : Nat → Nat) :
    Prop where
  /-- Following parents from a live frame visits no handle twice and ends, at a frame without a
  parent or at a dead handle, and if not `strict` at an object that is no frame; looking up,
  assigning and looking for `this` go from frame to parent, so they end, too, scripts apart; and a
  frame that is made in another one is one level deeper. -/
  ends : h.ScopesEnd strict
  /-- A frame of the heap may be stored again. -/
  again : ∀ x f, h.object? x = some (.frame f) → (Operation.alloc (.frame f)).Nests strict h
  /-- What may be stored now may be stored after other operations. -/
  later : ∀ o (op : Operation H), (Operation.alloc o).Nests strict h →
    (∀ i, countVacated h (op.after host h) freed i < 2 ^ 32) →
    (Operation.alloc o).Nests strict (op.after host h)

/-- Whatever is evaluated in the session leaves a heap that arises in the same way, however it ends.
If host code vacates no slots, then nothing does but the collections between the statements of a
program. -/
structure Session.KeepsArising (env : Environment H) (strict frees : Prop) (freed : Nat → Nat)
    (fuel : Nat) (c : Cursor) (s : Session H) : Prop where
  expr : ∀ e, ((runner env fuel).expr c e s).Leaves (Session.ArisesFrom env strict frees freed)
  stmt : ∀ st, ((runner env fuel).stmt c st s).Leaves (Session.ArisesFrom env strict frees freed)
  lookup : ∀ frame name,
    (lookup env (runner env fuel) frame name s).Leaves (Session.ArisesFrom env strict frees freed)
  call : ∀ callee args site,
    (callValue env (runner env fuel) c callee args site s).Leaves
      (Session.ArisesFrom env strict frees freed)
  program : ∀ program,
    (runProgram env (runner env fuel) c program s).Leaves (Session.ArisesFrom env strict True freed)

/-- What holds of scope chains in an environment. -/
structure Environment.ScopesEnd (env : Environment H) (strict frees : Prop) (h : Heap H)
    (freed : Nat → Nat) : Prop where
  heap : (∀ i, freed i < 2 ^ 32) → h.ScopesLast strict env.host.toKernelHost freed
  /-- Sessions start on heaps that arise. -/
  start : ∀ setup s, Setup.start setup = .ok (env, s) → s.heap.Arises env.host.toKernelHost strict
    fun _ => 0
  evaluation : ∀ fuel c (s : Session H), s.heap = h → s.KeepsArising env strict frees freed fuel c

/-- Scope chains end, on any heap that arises from operations. -/
theorem scope_chains_end (henv : env.Orderly strict frees)
    (ha : h.Arises env.host.toKernelHost strict freed) : env.ScopesEnd strict frees h freed := by
  refine ⟨fun hfreed => ?_, fun _ _ hstart => Setup.arises_start hstart, fun fuel c s hs => ?_⟩
  · obtain ⟨hc, hancestral⟩ := ha.ancestral hfreed
    exact ⟨hancestral.scopesEnd hc.tidy, fun _ _ hf => hancestral.nests hf,
      fun _ op hn hcount => nests_effect hn hc (effect_after _ op h) hcount⟩
  · subst hs
    have hfrom : s.ArisesFrom env strict frees freed := ha.from
    exact ⟨fun e => arises_expr henv e hfrom, fun st => arises_stmt henv st hfrom,
      fun frame name => leads_lookup (governs_arising henv) rfl frame name s hfrom,
      fun callee args site => leads_callValue (governs_arising henv) trivial rfl callee args
        site s hfrom,
      fun program => arises_program henv program hfrom.freeing⟩

/-! ### A history in which slots are used again -/

/-- Whether a run nests its frames in live ones only. -/
def Heap.nestsInFrames (host : KernelHost H) (h : Heap H) : List (Operation H) → Bool
  | [] => true
  | op :: rest =>
    (op.parent?.all fun p => (h.object? p).map HeapObject.kind = some .frame) &&
      nestsInFrames host (op.after host h) rest

/-- Such a run leads to a heap that arises, and vacates no slot more often than it has
operations. -/
lemma Heap.Arises.run {host : KernelHost H} (ha : h.Arises host strict freed)
    (ops : List (Operation H)) (hops : h.nestsInFrames host ops = true) :
    ∃ freed', (ops.foldl (fun h op => op.after host h) h).Arises host strict freed' ∧
      ∀ i, freed' i ≤ freed i + ops.length := by
  induction ops generalizing h freed with
  | nil => exact ⟨freed, ha, fun _ => Nat.le_refl _⟩
  | cons op rest ih =>
    obtain ⟨hop, hrest⟩ := Bool.and_eq_true_iff.mp hops
    have hn : op.Nests strict h := by
      intro p hp
      rw [hp, Option.all_some, decide_eq_true_eq] at hop
      obtain ⟨o, ho, hkind⟩ := Option.map_eq_some_iff.mp hop
      refine ⟨issued_of_contains (contains_of_object? ho), fun _ q hq => ?_⟩
      rw [ho] at hq
      cases hq
      exact hkind
    obtain ⟨freed', ha', hle⟩ := ih (ha.step hn) hrest
    refine ⟨freed', ha', fun i => (hle i).trans ?_⟩
    rw [countVacated, List.length_cons]
    split <;> omega

/-- Three frames, each in the one before. The middle one is taken out and stored again, and a frame
is stored in the innermost one; then the outermost one is taken out, and its slot is used for a
frame in all of them. -/
def recycling : List (Operation Stock.types) :=
  let inner (parent : ObjectId) (depth : Nat) : Operation Stock.types :=
    .alloc (.frame (.child parent depth))
  [.alloc (.frame (.root none)), inner ⟨0, 0⟩ 0, inner ⟨1, 0⟩ 1, .remove ⟨1, 0⟩, inner ⟨0, 0⟩ 0,
    inner ⟨2, 0⟩ 2, .remove ⟨0, 0⟩, inner ⟨3, 0⟩ 3]

def recycled : Heap Stock.types :=
  recycling.foldl (fun h op => op.after Stock.kernels h) (Heap.new .new 1)

/-- A frame literal. -/
def emptyFrame : Expr := .mk (.frame (.mk (.block false []) .builtin)) .builtin

/-- The frame that the literal makes inside the last frame, and the frames around it. -/
def nestedOnce : Option (Value × List ObjectId) :=
  match (runner (bareEnvironment 9) 9).expr ⟨⟨0, 1⟩, 0⟩ emptyFrame ⟨recycled, 0, 0, []⟩ with
  | .ok v t => some (v, t.heap.lineage ⟨4, 0⟩)
  | _ => none

/-- Functions of the stock host store a sequence or a cell, tick a node, or leave the heap as it
is. -/
lemma orderly_bare (maxDepth : Nat) : (bareEnvironment maxDepth).Orderly strict False where
  call fn args h freed ha := by
    have hfrom : h.ArisesFrom Stock.kernels strict False freed := ha.from
    cases fn with
    | pack => exact hfrom.alloc (Operation.nests_of_none rfl)
    | cell => exact hfrom.alloc (Operation.nests_of_none rfl)
    | tick =>
      refine HeapM.Ends.leaves
        (Q := fun h' : Heap Stock.types => h'.ArisesFrom Stock.kernels strict False freed) ?_
      show (Stock.call .tick args).Ends h _ _
      unfold Stock.call
      cases args.head?.bind Value.referent with
      | none => exact hfrom
      | some id =>
        exact (Regime.keeps_run (.tick id) rfl (fun _ => nofun) h hfrom).bind fun _ _ hh => hh
    | _ => exact hfrom
  function plugin hp := by cases hp

theorem scope_chains_end_recycled :
    ∃ freed, (∀ i, freed i < 2 ^ 32) ∧ recycled.Arises Stock.kernels True freed ∧
      recycled.ScopesEnd True ∧ recycled.lineage ⟨0, 1⟩ = [⟨0, 1⟩, ⟨3, 0⟩, ⟨2, 0⟩, ⟨1, 0⟩] ∧
      recycled.contains ⟨1, 0⟩ = false ∧
      ((runner (bareEnvironment 9) 9).expr ⟨⟨0, 1⟩, 0⟩ emptyFrame ⟨recycled, 0, 0, []⟩).Leaves
        (fun t => t.heap.ScopesEnd True) ∧
      nestedOnce = some (.frame ⟨4, 0⟩, [⟨4, 0⟩, ⟨0, 1⟩, ⟨3, 0⟩, ⟨2, 0⟩, ⟨1, 0⟩]) := by
  have hnew : Heap.Arises Stock.kernels True (Heap.new .new 1) fun _ => 0 := .new _ _
  obtain ⟨freed, ha, hle⟩ := hnew.run recycling (by decide +kernel)
  have hfreed : ∀ i, freed i < 2 ^ 32 := by
    intro i
    have hlength : recycling.length = 8 := rfl
    have := hle i
    omega
  have ha : recycled.Arises Stock.kernels True freed := ha
  have hscopes := scope_chains_end (orderly_bare 9) ha
  have hexpr := (hscopes.evaluation 9 ⟨⟨0, 1⟩, 0⟩ ⟨recycled, 0, 0, []⟩ rfl).expr
  refine ⟨freed, hfreed, ha, (hscopes.heap hfreed).ends, by decide +kernel, by decide +kernel, ?_,
    by decide +kernel⟩
  -- no slot was vacated meanwhile, so scope chains still end
  refine Outcome.Leaves.mono (hexpr emptyFrame) fun t ht => ?_
  obtain ⟨freed', hcounts, ha'⟩ := ht
  rw [hcounts.same.resolve_left id] at ha'
  exact ((scope_chains_end (orderly_bare 9) ha').heap hfreed).ends

/-! ### A frame in something else than a frame -/

/-- A sequence, and a frame whose parent is the sequence. -/
def astray : Heap Stock.types :=
  [Operation.alloc (.sequence #[]), .alloc (.frame (.child ⟨0, 0⟩ 0))].foldl
    (fun h op => op.after Stock.kernels h) (Heap.new .new 1)

/-- Any handle can be the parent of a frame that is stored. If it is the handle of a sequence,
following parents comes to the sequence, which is neither a frame without a parent nor dead, and the
look for `this` fails there. And a frame that is made in another one is whatever it is adjusted to,
which may have another depth. -/
theorem not_scope_chains_end :
    astray.Arises Stock.kernels False (fun _ => 0) ∧
    (∃ x f, astray.object? x = some (.frame f) ∧
      astray.thisFrame x = fail (.typeMismatch "frame" "sequence") ∧
      ¬ ∃ ids last, astray.ParentChain x ids ∧ ids.getLast? = some last ∧
        ((∃ g, astray.object? last = some (.frame g) ∧ g.parent = none) ∨
          astray.contains last = false)) ∧
    ¬ ∀ x f adjust, astray.object? x = some (.frame f) →
      ∃ y h' g, Heap.childFrame x adjust astray = .ok y h' ∧ h'.object? y = some (.frame g) ∧
        g.depth = min (f.depth + 1) (2 ^ 32 - 1) := by
  have hobject : astray.object? ⟨1, 0⟩ = some (.frame (.child ⟨0, 0⟩ 0)) := rfl
  have hsequence : astray.object? ⟨0, 0⟩ = some (.sequence #[]) := rfl
  refine ⟨?_, ⟨_, _, hobject, by rfl, ?_⟩, fun hall => ?_⟩
  · have hnew : (Heap.new .new 1).ArisesFrom Stock.kernels False False fun _ => 0 :=
      Heap.Arises.from (.new _ _)
    have hplain : (Operation.alloc (.sequence #[])).Nests False
        (Heap.new .new 1 : Heap Stock.types) :=
      Operation.nests_of_none rfl
    have hstored := hnew.alloc hplain
    have hnests : (Operation.alloc (.frame (.child ⟨0, 0⟩ 0))).Nests False
        ((Heap.new .new 1).alloc (.sequence #[] : HeapObject Stock.types)).2 := by
      intro p hp
      cases hp
      exact ⟨issued_of_contains rfl, False.elim⟩
    obtain ⟨freed, hcounts, ha⟩ := hstored.alloc hnests
    rwa [hcounts.same.resolve_left id] at ha
  · rintro ⟨ids, last, hchain, hlast, hend⟩
    have hparent : astray.parent? ⟨1, 0⟩ = some ⟨0, 0⟩ := rfl
    have hsame : ids = [⟨1, 0⟩, ⟨0, 0⟩] := hchain.unique (.inner hparent (.outermost rfl))
    rw [hsame] at hlast
    obtain rfl : ⟨0, 0⟩ = last := Option.some.inj hlast
    rcases hend with ⟨g, hg, -⟩ | hdead
    · rw [hsequence] at hg
      cases hg
    · cases hdead
  · -- the new frame is adjusted to one without a parent
    obtain ⟨y, h', g, hrun, hg, hdepth⟩ := hall ⟨1, 0⟩ _ (fun _ => .root none) hobject
    cases hrun
    cases hg
    cases hdepth

end Patchbay
