import Patchbay.Proofs.Scopes.Ancestry

/-!
# Chains of parents

Where parents lead back, following them from a handle visits no handle twice and comes to an end.
All that are visited but the last one are live frames, so a lineage, which is cut off after as many
parents as there are slots, is never cut off.
-/

namespace Patchbay.Heap

variable {H : HostTypes} {h : Heap H} {x y p : ObjectId} {ids ids' : List ObjectId} {f : Frame}
  {strict : Prop}

/-- The handles that are visited by following parents from a handle, up to one that has none. -/
inductive ParentChain (h : Heap H) : ObjectId → List ObjectId → Prop where
  | outermost {x : ObjectId} : h.parent? x = none → ParentChain h x [x]
  | inner {x p : ObjectId} {ids : List ObjectId} : h.parent? x = some p → ParentChain h p ids →
      ParentChain h x (x :: ids)

/-- Where following parents may end: at a frame without a parent or at a dead handle; and unless
`strict`, at an object that is no frame. -/
inductive ChainEnd (strict : Prop) (h : Heap H) (x : ObjectId) : Prop where
  | parentless (f : Frame) : h.object? x = some (.frame f) → f.parent = none → ChainEnd strict h x
  | dead : h.contains x = false → ChainEnd strict h x
  | noFrame (o : HeapObject H) : ¬ strict → h.object? x = some o → o.kind ≠ .frame →
      ChainEnd strict h x

namespace ParentChain

lemma eq_cons (hc : h.ParentChain x ids) : ∃ rest, ids = x :: rest := by
  cases hc with
  | outermost => exact ⟨[], rfl⟩
  | @inner _ _ rest => exact ⟨rest, rfl⟩

/-- There is one way to follow parents. -/
lemma unique (hc : h.ParentChain x ids) (hc' : h.ParentChain x ids') : ids = ids' := by
  induction hc generalizing ids' with
  | outermost hp =>
    cases hc' with
    | outermost => rfl
    | inner hp' => rw [hp] at hp'; cases hp'
  | inner hp _ ih =>
    cases hc' with
    | outermost hp' => rw [hp] at hp'; cases hp'
    | inner hp' hrest =>
      rw [hp] at hp'
      cases hp'
      rw [ih hrest]

/-- The chain of an ancestor is the rest of the chain from there. -/
lemma exists_suffix (hc : h.ParentChain x ids) (hy : y ∈ ids) :
    ∃ rest, h.ParentChain y rest ∧ rest <:+ ids := by
  induction hc with
  | @outermost x hp =>
    rw [List.mem_singleton.mp hy]
    exact ⟨[x], .outermost hp, List.suffix_refl _⟩
  | @inner x p ids hp hrest ih =>
    rcases List.mem_cons.mp hy with rfl | hmem
    · exact ⟨_, .inner hp hrest, List.suffix_refl _⟩
    · obtain ⟨rest, hchain, hsuffix⟩ := ih hmem
      exact ⟨rest, hchain, hsuffix.trans (List.suffix_cons x ids)⟩

/-- A handle that was visited twice would be followed by its own chain. -/
lemma nodup (hc : h.ParentChain x ids) : ids.Nodup := by
  induction hc with
  | outermost => exact List.nodup_singleton _
  | @inner x p ids hp hrest ih =>
    refine List.nodup_cons.mpr ⟨fun hmem => ?_, ih⟩
    obtain ⟨rest, hchain, hsuffix⟩ := hrest.exists_suffix hmem
    rw [hchain.unique (.inner hp hrest)] at hsuffix
    have hle := hsuffix.length_le
    rw [List.length_cons] at hle
    omega

/-- All but the last one are live. -/
lemma contains_of_mem_dropLast (hc : h.ParentChain x ids) :
    ∀ y ∈ ids.dropLast, h.contains y = true := by
  induction hc with
  | outermost => exact nofun
  | @inner x p ids hp hrest ih =>
    obtain ⟨rest, rfl⟩ := hrest.eq_cons
    intro y hy
    rw [List.dropLast_cons_cons] at hy
    rcases List.mem_cons.mp hy with rfl | hmem
    · exact contains_of_parent? hp
    · exact ih y hmem

lemma length_le (hc : h.ParentChain x ids) : ids.length ≤ h.slots.size + 1 := by
  have hsub : ids.dropLast ⊆ h.liveIds := fun y hy =>
    mem_liveIds.mpr (hc.contains_of_mem_dropLast y hy)
  have hnodup : ids.dropLast.Nodup := hc.nodup.sublist (List.dropLast_sublist ids)
  have hlive : ids.dropLast.length ≤ h.liveIds.length := (hnodup.subperm hsub).length_le
  have hslots : h.liveIds.length ≤ h.slots.size := by
    rw [liveIds]
    exact (List.length_filterMap_le _ _).trans (List.length_range).le
  rw [List.length_dropLast] at hlive
  omega

/-- With enough parents to follow, the chain is followed to its end. -/
lemma lineageOf_eq (hc : h.ParentChain x ids) {fuel : Nat} (hfuel : ids.length ≤ fuel + 1) :
    h.lineageOf fuel x = ids := by
  induction hc generalizing fuel with
  | outermost hp =>
    cases fuel with
    | zero => rfl
    | succ fuel => simp only [lineageOf, hp]
  | @inner x p ids hp hrest ih =>
    obtain ⟨rest, rfl⟩ := hrest.eq_cons
    obtain ⟨fuel, rfl⟩ : ∃ k, fuel = k + 1 := ⟨fuel - 1, by simp at hfuel; omega⟩
    simp only [lineageOf, hp]
    rw [ih (by simpa using hfuel)]

lemma lineage_eq (hc : h.ParentChain x ids) : h.lineage x = ids := hc.lineageOf_eq hc.length_le

/-- The last one is the first one, or somebody's parent; and it has no parent. -/
lemma exists_last (hc : h.ParentChain x ids) :
    ∃ last, ids.getLast? = some last ∧ h.parent? last = none ∧
      (last = x ∨ ∃ y, h.parent? y = some last) := by
  induction hc with
  | @outermost x hp => exact ⟨x, rfl, hp, .inl rfl⟩
  | @inner x p ids hp hrest ih =>
    obtain ⟨last, hlast, hnone, hor⟩ := ih
    obtain ⟨rest, rfl⟩ := hrest.eq_cons
    refine ⟨last, by rw [List.getLast?_cons_cons, hlast], hnone, .inr ?_⟩
    rcases hor with rfl | hparent
    · exact ⟨x, hp⟩
    · exact hparent

lemma ends (hc : h.ParentChain x ids) : h.endless x = false := by
  obtain ⟨last, hlast, hnone, -⟩ := hc.exists_last
  rw [endless, hc.lineage_eq, hlast, Option.bind_some, hnone]
  rfl

end ParentChain

namespace Ancestral

lemma exists_chain (ha : Ancestral strict h) (x : ObjectId) : ∃ ids, h.ParentChain x ids := by
  induction x using ha.wellFounded.induction with
  | _ x ih =>
    cases hp : h.parent? x with
    | none => exact ⟨[x], .outermost hp⟩
    | some p =>
      obtain ⟨ids, hchain⟩ := ih p hp
      exact ⟨x :: ids, .inner hp hchain⟩

lemma chain_lineage (ha : Ancestral strict h) (x : ObjectId) : h.ParentChain x (h.lineage x) := by
  obtain ⟨ids, hchain⟩ := ha.exists_chain x
  rwa [hchain.lineage_eq]

lemma ends (ha : Ancestral strict h) (x : ObjectId) : h.endless x = false :=
  (ha.chain_lineage x).ends

/-- A lineage goes on with the lineage of the parent. -/
lemma lineage_eq (ha : Ancestral strict h) (x : ObjectId) :
    h.lineage x = x :: match h.parent? x with
      | some p => h.lineage p
      | none => [] := by
  cases hp : h.parent? x with
  | none => exact (ParentChain.outermost hp).lineage_eq
  | some p => exact (ParentChain.inner hp (ha.chain_lineage p)).lineage_eq

/-- Following parents from a live frame ends. -/
lemma exists_end (ha : Ancestral strict h) (hf : h.object? x = some (.frame f)) :
    ∃ last, (h.lineage x).getLast? = some last ∧ h.ChainEnd strict last := by
  obtain ⟨last, hlast, hnone, hor⟩ := (ha.chain_lineage x).exists_last
  refine ⟨last, hlast, ?_⟩
  cases ho : h.object? last with
  | none => exact .dead (by rw [contains_eq_isSome_object?, ho]; rfl)
  | some o =>
    by_cases hkind : o.kind = .frame
    · cases o with
      | frame g => exact .parentless g ho ((parent?_of_frame ho).symm.trans hnone)
      | _ => cases hkind
    · refine .noFrame o (fun hs => hkind ?_) ho hkind
      rcases hor with rfl | ⟨y, hy⟩
      · rw [hf] at ho
        cases ho
        rfl
      · exact ha.frame hs y last o hy ho

end Ancestral

end Patchbay.Heap
