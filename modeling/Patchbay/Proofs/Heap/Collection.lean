import Patchbay.Host.Stock
import Patchbay.Proofs.Heap.Integrity

/-!
# What a collection does

A collection reclaims the objects that no root leads to, and no others. Survivors stay as they are,
up to their ages and the targets that went; none of them refers to anything that went.
-/

namespace Patchbay.Heap

variable {H : HostTypes} {h h' : Heap H} {host : KernelHost H} {freed : Nat → Nat} {bound : UInt8}
  {extra : List ObjectId}

/-- Whether an object of `h` is gone in `h'`. -/
def goneIn (h h' : Heap H) (id : ObjectId) : Bool := h.contains id && !h'.contains id

/-- The contract of a collection that turns `h` into `h'`. -/
structure CollectContract (h : Heap H) (bound : UInt8) (extra : List ObjectId)
    (stats : CollectStats) (h' : Heap H) : Prop where
  /-- A live object stays live exactly if a root leads to it. -/
  live_iff : ∀ id, h.contains id = true →
    (h'.contains id = true ↔ Reachable h (h.rootsOf bound extra) id)
  /-- Nothing comes to life. -/
  no_new : ∀ id, h'.contains id = true → h.contains id = true
  /-- Survivors keep their pins, and their objects up to targets that went. -/
  survivor : ∀ id e, h.entry? id = some e → h'.contains id = true →
    ∃ e', Heap.entry? h' id = some e' ∧ e'.pins = e.pins ∧ e'.object = e.object.dropTargets
      (h.goneIn h')
  /-- The age of a survivor falls to zero if something that went referred to it. -/
  age_dropped : ∀ id y o, h'.contains id = true → h.goneIn h' y = true → h.object? y = some o →
    id ∈ o.children → h'.age? id = some 0
  /-- Otherwise the age of a root grows by one, up to the greatest age, and other ages stay. -/
  age_kept : ∀ id a, Heap.age? (h.hold extra) id = some a → h'.contains id = true →
    (∀ y o, h.goneIn h' y = true → h.object? y = some o → id ∉ o.children) →
    ∃ a', h'.age? id = some a' ∧
      a'.toNat = if h.rootsOf bound extra id then min (a.toNat + 1) 255 else a.toNat
  /-- No survivor refers to anything that went. -/
  no_dangling : ∀ id o, h'.object? id = some o → ∀ y, h.goneIn h' y = true →
    y ∉ o.children ∧ ∀ i, ∀ t ∈ o.targetsAt i, t.node ≠ y
  /-- The figures count the roots, the survivors and what went. -/
  figures : stats = ⟨bound, (h.liveIds.filter fun id => h.rootsOf bound extra id).length,
    h'.liveIds.length, (h.liveIds.filter fun id => h.goneIn h' id).length⟩

lemma toNat_promoted {e : Entry H} : e.promoted.age.toNat = min (e.age.toNat + 1) 255 := by
  unfold Entry.promoted
  dsimp only
  have hlt := e.age.toNat_lt
  split
  · next hfull => simp [hfull, fullCollection]
  · next hne =>
    have hne' : e.age.toNat ≠ 255 := fun heq => hne (UInt8.toNat_inj.mp heq)
    rw [UInt8.toNat_add, UInt8.toNat_one]
    omega

/-- The number of roots of a collection. -/
lemma length_work : (Marking.ofRoots (h.hold extra) bound extra).work.length =
    (h.liveIds.filter fun id => h.rootsOf bound extra id).length := by
  have hroots : Marking.RootMarks (h.hold extra) (h.rootsOf bound extra) _ :=
    Marking.rootMarks_ofRoots _ _ _
  have hinj : ((h.liveIds.filter fun id => h.rootsOf bound extra id).map ObjectId.index).Nodup :=
    ((nodup_liveIds h).filter _).map_on fun x hx y hy heq =>
      eq_of_contains (mem_liveIds.mp (List.mem_of_mem_filter hx))
        (mem_liveIds.mp (List.mem_of_mem_filter hy)) heq
  rw [← List.length_map (f := ObjectId.index)]
  refine List.Perm.length_eq ((List.perm_ext_iff_of_nodup hroots.nodup hinj).mpr fun i => ?_)
  rw [hroots.work, hroots.marked]
  simp only [contains_hold, List.mem_map, List.mem_filter, mem_liveIds, decide_eq_true_eq]
  constructor
  · rintro ⟨id, hi, hc, hr⟩
    exact ⟨id, ⟨hc, hr⟩, hi⟩
  · rintro ⟨id, ⟨hc, hr⟩, hi⟩
    exact ⟨id, hi, hc, hr⟩

section Collected

variable {dead : List (ObjectId × HeapObject H)}

lemma Collected.gone_iff (hcol : Collected h bound extra dead h') {id : ObjectId} :
    h.goneIn h' id = true ↔ ∃ o, (id, o) ∈ dead := by
  rw [goneIn, Bool.and_eq_true, Bool.not_eq_true', ← Bool.not_eq_true, hcol.survives]
  constructor
  · rintro ⟨hc, hnot⟩
    obtain ⟨o, ho⟩ := exists_object? hc
    exact ⟨o, (hcol.dead_iff id o).mpr ⟨ho, hnot⟩⟩
  · rintro ⟨o, hd⟩
    obtain ⟨ho, hnot⟩ := (hcol.dead_iff id o).mp hd
    exact ⟨contains_of_object? ho, hnot⟩

lemma Collected.contains_dead (hcol : Collected h bound extra dead h') :
    (dead.map Prod.fst).contains = h.goneIn h' := by
  funext id
  rw [Bool.eq_iff_iff, List.contains_iff_mem, hcol.gone_iff]
  simp

lemma Collected.length_dead (hcol : Collected h bound extra dead h') :
    dead.length = (h.liveIds.filter fun id => h.goneIn h' id).length := by
  have hnd : (dead.map Prod.fst).Nodup :=
    List.Nodup.of_map ObjectId.index (by simpa [Function.comp_def] using hcol.nodup)
  rw [← List.length_map (f := Prod.fst)]
  refine List.Perm.length_eq ((List.perm_ext_iff_of_nodup hnd ((nodup_liveIds h).filter _)).mpr
    fun id => ?_)
  rw [List.mem_filter, mem_liveIds, hcol.gone_iff]
  simp only [List.mem_map, Prod.exists, exists_and_right, exists_eq_right]
  constructor
  · rintro ⟨o, hd⟩
    exact ⟨contains_of_object? ((hcol.dead_iff id o).mp hd).1, o, hd⟩
  · exact And.right

/-- Whether something that went referred to an object. -/
lemma Collected.mem_children (hcol : Collected h bound extra dead h') {id : ObjectId} :
    (dead.flatMap fun d => d.2.children).contains id = true ↔
      ∃ y o, h.goneIn h' y = true ∧ h.object? y = some o ∧ id ∈ o.children := by
  rw [List.contains_iff_mem, List.mem_flatMap]
  constructor
  · rintro ⟨⟨y, o⟩, hd, hmem⟩
    exact ⟨y, o, hcol.gone_iff.mpr ⟨o, hd⟩, ((hcol.dead_iff y o).mp hd).1, hmem⟩
  · rintro ⟨y, o, hgone, ho, hmem⟩
    obtain ⟨o', hd⟩ := hcol.gone_iff.mp hgone
    have : o' = o := Option.some.inj (((hcol.dead_iff y o').mp hd).1.symm.trans ho)
    exact ⟨(y, o'), hd, this ▸ hmem⟩

/-- What has become of a survivor. -/
lemma Collected.survivor (hcol : Collected h bound extra dead h') {id : ObjectId} {e : Entry H}
    (he : Heap.entry? (h.hold extra) id = some e) (hc : h'.contains id = true) :
    ∃ e', Heap.entry? h' id = some e' ∧ e'.pins = e.pins ∧
      e'.object = e.object.dropTargets (h.goneIn h') ∧
      e'.age = if (dead.flatMap fun d => d.2.children).contains id then 0
        else if h.rootsOf bound extra id then e.promoted.age else e.age := by
  refine ⟨_, hcol.entry id e he hc, ?_, ?_, ?_⟩
  · cases (dead.flatMap fun d => d.2.children).contains id <;>
      by_cases hr : h.rootsOf bound extra id <;> simp [Entry.released, hr, Entry.promoted]
  · rw [hcol.contains_dead]
  · cases (dead.flatMap fun d => d.2.children).contains id <;>
      by_cases hr : h.rootsOf bound extra id <;> simp [Entry.released, hr]

/-- An object that survived is what it was, up to targets that went. -/
lemma Collected.object (hcol : Collected h bound extra dead h') {id : ObjectId} {o : HeapObject H}
    (ho : h'.object? id = some o) :
    ∃ o', h.object? id = some o' ∧ o = o'.dropTargets (h.goneIn h') := by
  have hc := contains_of_object? ho
  obtain ⟨e, he⟩ := contains_iff.mp (contains_hold.trans ((hcol.survives id).mp hc).contains)
  obtain ⟨e', he', -, hobj, -⟩ := hcol.survivor he hc
  refine ⟨e.object, ?_, ?_⟩
  · rw [← object?_hold extra]
    exact object?_eq_some.mpr ⟨e, he, rfl⟩
  · rw [← hobj]
    obtain ⟨e'', he'', rfl⟩ := object?_eq_some.mp ho
    rw [he'] at he''
    cases he''
    rfl

end Collected

/-- A collection frees exactly what no root leads to. -/
theorem collect_frees_unreachable
    (hr : Reached host (fun _ op => op.StoresUnwired) h freed) (hfreed : ∀ i, freed i < 2 ^ 32)
    (bound : UInt8) (extra : List ObjectId) :
    CollectContract h bound extra (h.collect bound extra).1 (h.collect bound extra).2 := by
  have hi := hr.intact hfreed
  have hcol := collected_collect hi.wired bound extra
  have hrec := reclaimed_collect hi.wired bound extra
  refine ⟨fun id _ => hcol.survives id, fun id hc => ((hrec.contains id).mp hc).1,
    fun id e he hc => ?_, fun id y o hc hgone ho hmem => ?_, fun id a ha hc hnone => ?_,
    fun id o ho y hgone => ⟨fun hmem => ?_, fun i t ht hnode => ?_⟩, ?_⟩
  · -- dropping the extra roots resets ages only
    have hstart := entry?_hold h extra id
    rw [he, Option.map_some] at hstart
    obtain ⟨e', he', hpins, hobj, -⟩ := hcol.survivor hstart hc
    refine ⟨e', he', hpins.trans ?_, hobj.trans ?_⟩ <;> split <;> rfl
  · obtain ⟨e, he⟩ := contains_iff.mp (contains_hold.trans ((hcol.survives id).mp hc).contains)
    obtain ⟨e', he', -, -, hage⟩ := hcol.survivor he hc
    rw [if_pos (hcol.mem_children.mpr ⟨y, o, hgone, ho, hmem⟩)] at hage
    rw [age?, he', Option.map_some, hage]
  · obtain ⟨e, he, rfl⟩ := Option.map_eq_some_iff.mp ha
    obtain ⟨e', he', -, -, hage⟩ := hcol.survivor he hc
    refine ⟨e'.age, by rw [age?, he', Option.map_some], ?_⟩
    rw [hage, if_neg]
    · split
      · exact toNat_promoted
      · rfl
    · rintro hhit
      obtain ⟨y, o, hgone, ho, hmem⟩ := hcol.mem_children.mp hhit
      exact hnone y o hgone ho hmem
  · obtain ⟨o', ho', rfl⟩ := hcol.object ho
    rw [HeapObject.children_dropTargets] at hmem
    obtain ⟨obj, hd⟩ := hcol.gone_iff.mp hgone
    obtain ⟨hy, hnot⟩ := (hcol.dead_iff y obj).mp hd
    -- a child of a survivor is reached through it
    exact hnot (.child ((hcol.survives id).mp (contains_of_object? ho)) ho' hmem
      (contains_of_object? hy))
  · obtain ⟨o', -, rfl⟩ := hcol.object ho
    rw [HeapObject.targetsAt_dropTargets, List.mem_filter, hnode, hgone] at ht
    simp at ht
  · have hlive := (hrec.tidy hi.tidy).live
    rw [← length_work, ← hcol.length_dead, ← hlive]
    rfl

/-- A pinned constant, and a node behind it that nothing refers to. -/
def sampleSteps : List (Operation Stock.types) :=
  [.alloc (.node (.constant "c" (.text "a"))), .alloc (.node (.unaryOp "u" .not)), .pin ⟨0, 0⟩,
    .connect ⟨⟨1, 0⟩, 0⟩ ⟨⟨0, 0⟩, 0⟩]

def sampleHeap : Heap Stock.types :=
  sampleSteps.foldl (fun h op => op.after Stock.kernels h) (Heap.new .new 1)

theorem collect_frees_unreachable_sample :
    CollectContract sampleHeap 255 [] (sampleHeap.collect 255 []).1 (sampleHeap.collect 255 []).2 ∧
      (sampleHeap.collect 255 []).1 = ⟨255, 1, 1, 1⟩ := by
  have hunwired : ∀ op ∈ sampleSteps, ∀ _h : Heap Stock.types, op.StoresUnwired := by
    intro op hop _
    simp only [sampleSteps, List.mem_cons, List.not_mem_nil, or_false] at hop
    rcases hop with rfl | rfl | rfl | rfl
    · exact HeapObject.unwired_constant
    · exact HeapObject.unwired_unaryOp
    · trivial
    · trivial
  have hnew : Reached Stock.kernels (fun _ op => op.StoresUnwired) _ _ := .new .new 1
  obtain ⟨freed, hr, hle⟩ := hnew.sequence sampleSteps hunwired
  refine ⟨collect_frees_unreachable hr (fun i => ?_) 255 [], by decide +kernel⟩
  have := hle i
  simp [sampleSteps] at this
  omega

end Patchbay.Heap
