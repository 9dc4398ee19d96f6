import Patchbay.Proofs.Heap.Naming
import Patchbay.Proofs.Interning

/-!
# The table of a frame and its history

A frame keeps a row of bindings and an index into it, and both are written by every definition. What
they hold is determined by the writes that the frame has seen since it was made: the row has the
names in the order of their first writes, the index has the place of each of them, and the value of
a name is the last one written to it.
-/

namespace Patchbay

variable {H : HostTypes} {name n : Name} {v old : Value}

namespace Frame

variable {f f' : Frame} {log : List (Name × Value)}

/-- A frame as it is made, before it has any binding. -/
inductive Fresh : Frame → Prop where
  | root (path : Option Path) : Fresh (.root path)
  | child (parent : ObjectId) (parentDepth : Nat) : Fresh (.child parent parentDepth)
  | withPath {f : Frame} (path : Path) : Fresh f → Fresh (f.withPath path)
  | asThis {f : Frame} : Fresh f → Fresh f.asThis

/-- A frame that has seen the writes of a log: the names are in the order of their first writes, the
index has their places, and each has the value of its last write. -/
structure Records (log : List (Name × Value)) (f : Frame) : Prop where
  names : f.boundNames = (log.map Prod.fst).eraseDups
  nodup : f.boundNames.Nodup
  places : ∀ (n : Name) (i : Nat), f.index[n]? = some i ↔ f.boundNames[i]? = some n
  values : ∀ n, f.get? n = log.reverse.lookup n

lemma getElem?_boundNames {i : Nat} : f.boundNames[i]? = f.bindings[i]?.map Prod.fst := by
  simp [boundNames]

lemma length_boundNames : f.boundNames.length = f.bindings.size := by simp [boundNames]

lemma Fresh.records (hf : f.Fresh) : f.Records [] := by
  have hempty : f.bindings = #[] ∧ f.index = ∅ := by
    induction hf with
    | root path => exact ⟨rfl, rfl⟩
    | child parent parentDepth => exact ⟨rfl, rfl⟩
    | withPath path _ ih => exact ih
    | asThis _ ih => exact ih
  obtain ⟨hbindings, hindex⟩ := hempty
  constructor <;> simp [boundNames, get?, hbindings, hindex]

/-! ## What one more write does to a log -/

lemma lookup_concat (log : List (Name × Value)) (name n : Name) (v : Value) :
    (log ++ [(name, v)]).reverse.lookup n = if n = name then some v else log.reverse.lookup n := by
  rw [List.reverse_append, List.reverse_singleton, List.singleton_append, List.lookup_cons]
  split <;> simp_all

lemma getElem?_concat_of_notMem {names : List Name} {i : Nat} (hn : n ∉ names) :
    (names ++ [n])[i]? = some n ↔ i = names.length := by
  rw [List.getElem?_append]
  split
  · next hlt =>
    have hold : names[i]? ≠ some n := fun heq => hn (List.mem_of_getElem? heq)
    exact iff_of_false hold (Nat.ne_of_lt hlt)
  · next hge =>
    rw [List.getElem?_singleton]
    split <;> simp <;> omega

lemma getElem?_concat_of_ne {names : List Name} {i : Nat} (hne : n ≠ name) :
    (names ++ [name])[i]? = some n ↔ names[i]? = some n := by
  rw [List.getElem?_append]
  split
  · rfl
  · next hge =>
    rw [List.getElem?_singleton, List.getElem?_eq_none (Nat.le_of_not_lt hge)]
    split <;> simp [hne.symm]

namespace Records

lemma contains_iff (hf : f.Records log) : f.contains n = true ↔ n ∈ f.boundNames := by
  rw [contains, Std.TreeMap.contains_eq_isSome_getElem?, Option.isSome_iff_exists,
    List.mem_iff_getElem?]
  exact exists_congr (hf.places n)

lemma mem_log (hf : f.Records log) : n ∈ log.map Prod.fst ↔ n ∈ f.boundNames := by
  rw [hf.names, List.mem_eraseDups]

/-- A name that is written for the first time comes last. -/
lemma insert (hf : f.Records log) (hr : f.insert? name v = some f') :
    f'.Records (log ++ [(name, v)]) := by
  have hnames := boundNames_insert hr
  -- an insertion that succeeds is of a name the log does not hold
  have hnew : name ∉ f.boundNames := by
    rw [← hf.contains_iff]
    intro hbound
    simp [insert?, hbound] at hr
  refine ⟨?_, ?_, fun n i => ?_, fun n => ?_⟩
  · rw [hnames, List.map_append, List.map_singleton, eraseDups_concat,
      if_neg (mt hf.mem_log.mp hnew), hf.names]
  · rw [hnames]
    exact List.concat_eq_append ▸ hf.nodup.concat hnew
  · obtain ⟨-, hindex, -⟩ := of_insert hr
    rw [hnames, hindex, Std.TreeMap.getElem?_insert, ← length_boundNames]
    by_cases hn : n = name
    · subst hn
      rw [if_pos Std.ReflOrd.compare_self, getElem?_concat_of_notMem hnew, Option.some_inj]
      exact eq_comm
    · have hcmp : compare name n ≠ .eq := fun heq => hn (Std.LawfulEqOrd.eq_of_compare heq).symm
      rw [if_neg hcmp, hf.places, getElem?_concat_of_ne hn]
  · rw [lookup_concat]
    split
    · next hn => rw [hn, get?_insert hr]
    · next hn => rw [get?_insert_of_ne hr hn, hf.values]

/-- Writing to a name again leaves the names and their places. -/
lemma replace (hf : f.Records log) (hr : f.replace? name v = some (old, f')) :
    f'.Records (log ++ [(name, v)]) := by
  have hnames := boundNames_replace hr
  obtain ⟨i, -, hi, -, -, hindex, -⟩ := of_replace hr
  have hbound : name ∈ f.boundNames := List.mem_iff_getElem?.mpr ⟨i, (hf.places name i).mp hi⟩
  refine ⟨?_, hnames ▸ hf.nodup, fun n j => ?_, fun n => ?_⟩
  · rw [hnames, List.map_append, List.map_singleton, eraseDups_concat,
      if_pos (hf.mem_log.mpr hbound), hf.names]
  · rw [hnames, hindex, hf.places]
  · have hkeyed : ∀ (n : Name) (i : Nat), f.index[n]? = some i →
        f.bindings[i]?.map Prod.fst = some n :=
      fun n i hi => getElem?_boundNames ▸ (hf.places n i).mp hi
    rw [lookup_concat]
    split
    · next hn => rw [hn, get?_replace hr]
    · next hn => rw [get?_replace_of_keyed hkeyed hr hn, hf.values]

end Records

lemma insert?_eq_none_iff : f.insert? name v = none ↔ f.contains name = true := by
  unfold insert?
  split <;> simp_all

lemma replace?_eq_none_iff : f.replace? name v = none ↔ f.contains name = false := by
  rw [contains_eq_isSome_get?]
  cases hr : f.replace? name v with
  | none => simp [get?_eq_none_of_replace hr]
  | some r =>
    obtain ⟨old, f'⟩ := r
    simp [get?_of_replace hr]

end Frame

/-! ## Writing through the heap -/

/-- The ways to write a binding. -/
inductive WriteMode where
  | define
  | assign
  | bind

/-- A binding to be written, and the frame that it is for. -/
structure FrameWrite where
  mode : WriteMode
  frame : ObjectId
  name : Name
  value : Value

namespace FrameWrite

/-- Write the binding; tells whether it was written. -/
def run (w : FrameWrite) : HeapM H Bool :=
  match w.mode with
  | .define => do
    Heap.define w.frame w.name w.value
    return true
  | .assign => Heap.assign w.frame w.name w.value
  | .bind => do
    Heap.bind w.frame w.name w.value
    return true

/-- Whether the binding is written. -/
def lands (w : FrameWrite) (h : Heap H) : Bool :=
  match w.run h with
  | .ok written _ => written
  | .error _ _ => false

/-- What a frame sees of the write. -/
def entries (w : FrameWrite) (id : ObjectId) (h : Heap H) : List (Name × Value) :=
  if w.frame = id ∧ w.lands h = true then [(w.name, w.value)] else []

end FrameWrite

namespace Heap

variable {h h' : Heap H} {id : ObjectId} {f : Frame} {log : List (Name × Value)} {w : FrameWrite}

/-- The heap after a row of writes, whether they succeed or not. -/
def afterWrites (h : Heap H) (ws : List FrameWrite) : Heap H :=
  ws.foldl (fun h w => w.run.leaves h) h

/-- The bindings that a row of writes puts into a frame, one after the other. -/
def history (id : ObjectId) : Heap H → List FrameWrite → List (Name × Value)
  | _, [] => []
  | h, w :: ws => w.entries id h ++ history id (w.run.leaves h) ws

lemma object?_putFrame (hf : h.object? id = some (.frame f)) (f' : Frame) :
    (h.putFrame id f').object? id = some (.frame f') := by
  rw [putFrame, object?_modifyObject, if_pos rfl, hf]
  rfl

lemma define_eq (hf : h.object? id = some (.frame f)) : define id name v h =
    match f.insert? name v with
    | some f' => .ok () (h.putFrame id f')
    | none => .error (.of (.duplicateBinding (h.names.lookup name))) h := by
  rw [define, HeapM.read_bind_of_ok (frame_eq_ok.mpr hf)]
  cases f.insert? name v <;> rfl

lemma assign_eq (hf : h.object? id = some (.frame f)) : assign id name v h =
    match f.replace? name v with
    | some (old, f') => .ok true ((h.putFrame id f').release old)
    | none => .ok false h := by
  rw [assign, HeapM.read_bind_of_ok (frame_eq_ok.mpr hf)]
  cases f.replace? name v <;> rfl

lemma bind_eq (hf : h.object? id = some (.frame f)) : bind id name v h =
    match f.replace? name v with
    | some (old, f') => .ok () ((h.putFrame id f').release old)
    | none => define id name v h := by
  simp only [bind, Bind.bind, EStateM.bind, assign_eq hf]
  cases f.replace? name v <;> rfl

lemma write_of_contains (hf : h.object? id = some (.frame f)) (hc : f.contains n = true)
    (v : Value) : define id n v h = .error (.of (.duplicateBinding (h.names.lookup n))) h ∧
      (∃ h', assign id n v h = .ok true h') ∧ ∃ h', bind id n v h = .ok () h' := by
  have hins : f.insert? n v = none := Frame.insert?_eq_none_iff.mpr hc
  obtain ⟨⟨old, f'⟩, hrep⟩ : ∃ r, f.replace? n v = some r := by
    rw [← Option.ne_none_iff_exists']
    exact fun hnone => absurd (Frame.replace?_eq_none_iff.mp hnone) (by simp [hc])
  rw [define_eq hf, assign_eq hf, bind_eq hf, hins, hrep]
  exact ⟨rfl, ⟨_, rfl⟩, _, rfl⟩

lemma write_of_not_contains (hf : h.object? id = some (.frame f)) (hc : f.contains n = false)
    (v : Value) : (∃ h', define id n v h = .ok () h') ∧ assign id n v h = .ok false h ∧
      ∃ h', bind id n v h = .ok () h' := by
  have hrep : f.replace? n v = none := Frame.replace?_eq_none_iff.mpr hc
  obtain ⟨f', hins⟩ : ∃ f', f.insert? n v = some f' := by
    rw [← Option.ne_none_iff_exists']
    exact fun hnone => absurd (Frame.insert?_eq_none_iff.mp hnone) (by simp [hc])
  rw [assign_eq hf, bind_eq hf, hrep, define_eq hf, hins]
  exact ⟨⟨_, rfl⟩, rfl, _, rfl⟩

/-- A write that lands adds a binding to its frame or overwrites one, and any other changes
nothing. -/
lemma run_cases (hf : h.object? w.frame = some (.frame f)) :
    (w.lands h = false ∧ w.run.leaves h = h) ∨
    (w.lands h = true ∧ ∃ f', (w.run.leaves h).object? w.frame = some (.frame f') ∧
      (f.insert? w.name w.value = some f' ∨
        ∃ old, f.replace? w.name w.value = some (old, f'))) := by
  obtain ⟨mode, frame, name, v⟩ := w
  dsimp only at hf ⊢
  have hadded : ∀ f', f.insert? name v = some f' →
      (h.putFrame frame f').object? frame = some (.frame f') := fun f' _ => object?_putFrame hf f'
  have hoverwritten : ∀ old f', f.replace? name v = some (old, f') →
      ((h.putFrame frame f').release old).object? frame = some (.frame f') := by
    intro old f' _
    rw [object?_release, object?_putFrame hf]
  cases mode with
  | define =>
    simp only [FrameWrite.lands, FrameWrite.run, HeapM.leaves, Bind.bind, EStateM.bind,
      define_eq hf]
    cases hins : f.insert? name v with
    | none => exact .inl ⟨rfl, rfl⟩
    | some f' => exact .inr ⟨rfl, f', hadded f' hins, .inl rfl⟩
  | assign =>
    simp only [FrameWrite.lands, FrameWrite.run, HeapM.leaves, assign_eq hf]
    cases hrep : f.replace? name v with
    | none => exact .inl ⟨rfl, rfl⟩
    | some r => exact .inr ⟨rfl, r.2, hoverwritten r.1 r.2 hrep, .inr ⟨r.1, rfl⟩⟩
  -- to bind is to assign and, where the name is unbound, to define
  | bind =>
    simp only [FrameWrite.lands, FrameWrite.run, HeapM.leaves, Bind.bind, EStateM.bind, bind_eq hf,
      define_eq hf]
    cases hrep : f.replace? name v with
    | some r => exact .inr ⟨rfl, r.2, hoverwritten r.1 r.2 hrep, .inr ⟨r.1, rfl⟩⟩
    | none =>
      cases hins : f.insert? name v with
      | none => exact .inl ⟨rfl, rfl⟩
      | some f' => exact .inr ⟨rfl, f', hadded f' hins, .inl rfl⟩

/-- The writes to other frames. -/
lemma spares_run {x : ObjectId} (hx : x ≠ w.frame) : HeapM.Spares x (w.run (H := H)) := by
  unfold FrameWrite.run
  cases w.mode with
  | define => exact (spares_define hx).bind fun _ => HeapM.spares_pure
  | assign => exact spares_assign hx
  | bind => exact (spares_bind hx).bind fun _ => HeapM.spares_pure

/-- A frame records one more write. -/
lemma records_run (hf : h.object? id = some (.frame f)) (hr : f.Records log) (w : FrameWrite) :
    ∃ f', (w.run.leaves h).object? id = some (.frame f') ∧ f'.Records (log ++ w.entries id h) := by
  by_cases hid : w.frame = id
  · subst hid
    obtain ⟨hlands, hsame⟩ | ⟨hlands, f', hf', hwrote⟩ := run_cases (w := w) hf
    · refine ⟨f, by rwa [hsame], ?_⟩
      simpa [FrameWrite.entries, hlands] using hr
    · refine ⟨f', hf', ?_⟩
      rw [FrameWrite.entries, if_pos ⟨rfl, hlands⟩]
      obtain hins | ⟨old, hrep⟩ := hwrote
      · exact hr.insert hins
      · exact hr.replace hrep
  · refine ⟨f, by rwa [spares_run (Ne.symm hid) h], ?_⟩
    simpa [FrameWrite.entries, hid] using hr

lemma records_afterWrites (hf : h.object? id = some (.frame f)) (hr : f.Records log)
    (ws : List FrameWrite) : ∃ f', (h.afterWrites ws).object? id = some (.frame f') ∧
    f'.Records (log ++ history id h ws) := by
  induction ws generalizing h f log with
  | nil => exact ⟨f, hf, by simpa [history] using hr⟩
  | cons w ws ih =>
    obtain ⟨f', hf', hr'⟩ := records_run hf hr w
    rw [history, ← List.append_assoc]
    exact ih hf' hr'

/-- After any row of writes to a frame that was made without bindings, and to other frames, its
names are distinct and in the order of their first writes, its index has exactly their places, and
each name has the value of its last write that landed. Defining a name fails for the bound names,
and only for them; assigning finds the bound names, and only them. -/
theorem table_is_history (hf : h.object? id = some (.frame f)) (hfresh : f.Fresh)
    (ws : List FrameWrite) : ∃ f', (h.afterWrites ws).object? id = some (.frame f') ∧
      f'.boundNames.Nodup ∧
      f'.boundNames = ((history id h ws).map Prod.fst).eraseDups ∧
      (∀ (n : Name) (i : Nat), f'.index[n]? = some i ↔ f'.boundNames[i]? = some n) ∧
      (∀ (n : Name) (i : Nat), f'.index[n]? = some i → i < f'.bindings.size) ∧
      (∀ n, (h.afterWrites ws).lookupLocal id n = .ok (f'.get? n) ∧
        f'.get? n = (history id h ws).reverse.lookup n) ∧
      ∀ n v,
        (n ∈ f'.boundNames →
          define id n v (h.afterWrites ws) =
            .error (.of (.duplicateBinding ((h.afterWrites ws).names.lookup n)))
              (h.afterWrites ws) ∧
          ∃ h', assign id n v (h.afterWrites ws) = .ok true h') ∧
        (n ∉ f'.boundNames →
          (∃ h', define id n v (h.afterWrites ws) = .ok () h') ∧
          assign id n v (h.afterWrites ws) = .ok false (h.afterWrites ws)) ∧
        ∃ h', bind id n v (h.afterWrites ws) = .ok () h' := by
  obtain ⟨f', hf', hr⟩ := records_afterWrites hf hfresh.records ws
  rw [List.nil_append] at hr
  refine ⟨f', hf', hr.nodup, hr.names, hr.places, f'.indexed, fun n => ⟨?_, hr.values n⟩,
    fun n v => ?_⟩
  · rw [lookupLocal, frame_eq_ok.mpr hf']
    rfl
  · rw [← hr.contains_iff]
    cases hc : f'.contains n with
    | true =>
      obtain ⟨hdefine, hassign, hbind⟩ := write_of_contains hf' hc v
      exact ⟨fun _ => ⟨hdefine, hassign⟩, fun hnot => absurd rfl hnot, hbind⟩
    | false =>
      obtain ⟨hdefine, hassign, hbind⟩ := write_of_not_contains hf' hc v
      exact ⟨nofun, fun _ => ⟨hdefine, hassign⟩, hbind⟩

/-- A frame of a parent that is gone already. -/
def writtenHeap : Heap Stock.types := ((Heap.new .new 100).alloc (.frame (.child ⟨7, 0⟩ 2))).2

/-- Writes to the frame, of which the first and the fourth fail, and one that is for no frame. -/
def sampleWrites : List FrameWrite :=
  [⟨.assign, ⟨0, 0⟩, ⟨1⟩, .bool false⟩, ⟨.define, ⟨0, 0⟩, ⟨2⟩, .bool false⟩,
    ⟨.bind, ⟨0, 0⟩, ⟨1⟩, .bool true⟩, ⟨.define, ⟨0, 0⟩, ⟨2⟩, .absent⟩,
    ⟨.bind, ⟨1, 0⟩, ⟨3⟩, .absent⟩, ⟨.assign, ⟨0, 0⟩, ⟨2⟩, .bool true⟩]

theorem table_is_history_sample :
    writtenHeap.object? ⟨0, 0⟩ = some (.frame (.child ⟨7, 0⟩ 2)) ∧ (Frame.child ⟨7, 0⟩ 2).Fresh ∧
    ∃ f', (writtenHeap.afterWrites sampleWrites).object? ⟨0, 0⟩ = some (.frame f') ∧
      f'.boundNames = [⟨2⟩, ⟨1⟩] ∧ f'.get? ⟨2⟩ = some (.bool true) := by
  have hf : writtenHeap.object? ⟨0, 0⟩ = some (.frame (.child ⟨7, 0⟩ 2)) := rfl
  have hfresh : (Frame.child ⟨7, 0⟩ 2).Fresh := .child _ _
  have hhistory : history ⟨0, 0⟩ writtenHeap sampleWrites =
      [(⟨2⟩, .bool false), (⟨1⟩, .bool true), (⟨2⟩, .bool true)] := by decide +kernel
  obtain ⟨f', hf', -, hnames, -, -, hvalues, -⟩ := table_is_history hf hfresh sampleWrites
  rw [hhistory] at hnames hvalues
  exact ⟨hf, hfresh, f', hf', hnames, (hvalues ⟨2⟩).2⟩

end Heap
end Patchbay
