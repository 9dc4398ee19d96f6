import Mathlib.Tactic.Common
import Patchbay.Frame

/-!
# Names and the bindings under them

A table of names is sound if the name of a text leads back to the text, and the bindings of a frame
are well named if the index leads each name to its own binding and all names are in the table. Then
different texts have different names, a text that gets its name only now is bound nowhere, and
writing one binding of a frame leaves the others alone.
-/

namespace Patchbay

namespace Interner

variable {names : Interner} {s t : String} {n : Name}

/-- The name of a text leads back to it. -/
def Sound (names : Interner) : Prop :=
  ∀ s n, names.get? s = some n → names.strings[n.slot]? = some s

lemma sound_new : new.Sound := by
  intro s n hn
  simp only [get?, new, Std.TreeMap.getElem?_insert] at hn
  split at hn
  · next heq =>
    cases hn
    exact congrArg some (Std.LawfulEqOrd.eq_of_compare heq)
  · simp at hn

lemma Sound.slot_lt (hs : names.Sound) (hn : names.get? s = some n) : n.slot < names.size :=
  (Array.getElem?_eq_some_iff.mp (hs s n hn)).1

/-- Texts with the same name are the same. -/
lemma Sound.get?_injective (hs : names.Sound) (h1 : names.get? s = some n)
    (h2 : names.get? t = some n) : s = t :=
  Option.some.inj ((hs s n h1).symm.trans (hs t n h2))

lemma intern_of_get? (hn : names.get? s = some n) : names.intern s = (n, names) := by
  rw [intern, hn]

/-- A new text gets the next place in the row. -/
lemma intern_of_none (hs : names.get? s = none) :
    names.intern s = (⟨names.size⟩,
      { slots := names.slots.insert s ⟨names.size⟩, strings := names.strings.push s }) := by
  rw [intern, hs]
  rfl

lemma get?_intern : (names.intern s).2.get? s = some (names.intern s).1 := by
  cases hn : names.get? s with
  | some n => rw [intern_of_get? hn, hn]
  | none =>
    rw [intern_of_none hn]
    simp [get?]

lemma get?_intern_of_ne (hne : t ≠ s) : (names.intern s).2.get? t = names.get? t := by
  cases hn : names.get? s with
  | some n => rw [intern_of_get? hn]
  | none =>
    rw [intern_of_none hn]
    simp [get?, Std.TreeMap.getElem?_insert, hne.symm]

lemma size_le_intern : names.size ≤ (names.intern s).2.size := by
  cases hn : names.get? s with
  | some n => exact Nat.le_of_eq (by rw [intern_of_get? hn])
  | none =>
    rw [intern_of_none hn]
    simp [size]

lemma Sound.intern (hs : names.Sound) : (names.intern s).2.Sound := by
  cases hn : names.get? s with
  | some n => rwa [intern_of_get? hn]
  | none =>
    intro t n ht
    by_cases hts : t = s
    · subst hts
      rw [get?_intern] at ht
      cases ht
      rw [intern_of_none hn]
      simp [size]
    · rw [get?_intern_of_ne hts] at ht
      have hlt := hs.slot_lt ht
      rw [intern_of_none hn]
      exact (Array.getElem?_push_lt hlt).trans
        ((Array.getElem?_eq_getElem hlt).symm.trans (hs t n ht))

end Interner

namespace Frame

variable {f f' : Frame} {names names' : Interner} {name n : Name} {v old : Value}

/-- The frame stays where it is among the frames. -/
structure SamePlace (f f' : Frame) : Prop where
  parent : f'.parent = f.parent
  path : f'.path = f.path
  depth : f'.depth = f.depth
  isThis : f'.isThis = f.isThis

/-! ## What a write does -/

/-- A new binding comes last. -/
lemma of_insert (hf : f.insert? name v = some f') :
    f'.bindings = f.bindings.push (name, v) ∧ f'.index = f.index.insert name f.bindings.size ∧
      f.SamePlace f' := by
  unfold insert? at hf
  split at hf
  · cases hf
  · cases hf
    exact ⟨rfl, rfl, rfl, rfl, rfl, rfl⟩

/-- A binding that is overwritten keeps its place and its stored name. -/
lemma of_replace (hf : f.replace? name v = some (old, f')) :
    ∃ i bound, f.index[name]? = some i ∧ f.bindings[i]? = some (bound, old) ∧
      f'.bindings = f.bindings.setIfInBounds i (bound, v) ∧ f'.index = f.index ∧
      f.SamePlace f' := by
  unfold replace? at hf
  split at hf
  · cases hf
  · next i hi =>
    split at hf
    · cases hf
    · next bound old' hbinding =>
      cases hf
      exact ⟨i, bound, hi, hbinding, rfl, rfl, rfl, rfl, rfl, rfl⟩

lemma samePlace_insert (hf : f.insert? name v = some f') : f.SamePlace f' := (of_insert hf).2.2

lemma samePlace_replace (hf : f.replace? name v = some (old, f')) : f.SamePlace f' := by
  obtain ⟨-, -, -, -, -, -, hplace⟩ := of_replace hf
  exact hplace

/-- The bound names of a frame, in the order of definition. -/
def boundNames (f : Frame) : List Name := f.bindings.toList.map Prod.fst

lemma boundNames_insert (hf : f.insert? name v = some f') :
    f'.boundNames = f.boundNames ++ [name] := by
  obtain ⟨hbindings, -, -⟩ := of_insert hf
  simp [boundNames, hbindings]

/-- Overwriting a binding keeps the stored name, so the names are the same ones. -/
lemma boundNames_replace (hf : f.replace? name v = some (old, f')) :
    f'.boundNames = f.boundNames := by
  obtain ⟨i, bound, -, hbinding, hbindings, -, -⟩ := of_replace hf
  obtain ⟨hlt, hstored⟩ : ∃ hlt : i < f.boundNames.length, f.boundNames[i] = bound :=
    List.getElem?_eq_some_iff.mp (by simp [boundNames, hbinding])
  rw [boundNames, hbindings, Array.toList_setIfInBounds, List.map_set, ← hstored]
  exact List.set_getElem_self hlt

/-! ## One binding -/

lemma contains_eq_isSome_get? : f.contains name = (f.get? name).isSome := by
  unfold contains get?
  rw [Std.TreeMap.contains_eq_isSome_getElem?]
  cases hi : f.index[name]? with
  | none => rfl
  | some i => simp [f.indexed name i hi]

lemma get?_insert (hf : f.insert? name v = some f') : f'.get? name = some v := by
  obtain ⟨hbindings, hindex, -⟩ := of_insert hf
  simp [get?, hbindings, hindex]

lemma get?_insert_of_ne (hf : f.insert? name v = some f') (hne : n ≠ name) :
    f'.get? n = f.get? n := by
  obtain ⟨hbindings, hindex, -⟩ := of_insert hf
  have hcmp : compare name n ≠ .eq := fun heq => hne (Std.LawfulEqOrd.eq_of_compare heq).symm
  simp only [get?, hbindings, hindex, Std.TreeMap.getElem?_insert, if_neg hcmp]
  cases hi : f.index[n]? with
  | none => rfl
  | some i => simp [Array.getElem?_push, Nat.ne_of_lt (f.indexed n i hi)]

lemma get?_replace (hf : f.replace? name v = some (old, f')) : f'.get? name = some v := by
  obtain ⟨i, bound, hi, -, hbindings, hindex, -⟩ := of_replace hf
  simp [get?, hbindings, hindex, hi, f.indexed name i hi]

lemma get?_of_replace (hf : f.replace? name v = some (old, f')) : f.get? name = some old := by
  obtain ⟨i, bound, hi, hbinding, -⟩ := of_replace hf
  simp [get?, hi, hbinding]

/-- If the index leads each name to its own binding, the binding of another name is at another
place. -/
lemma get?_replace_of_keyed
    (hkeyed : ∀ (n : Name) (i : Nat), f.index[n]? = some i → f.bindings[i]?.map Prod.fst = some n)
    (hr : f.replace? name v = some (old, f')) (hne : n ≠ name) : f'.get? n = f.get? n := by
  obtain ⟨i, bound, hi, -, hbindings, hindex, -⟩ := of_replace hr
  simp only [get?, hbindings, hindex]
  cases hj : f.index[n]? with
  | none => rfl
  | some j =>
    -- a place has one stored name, to which both indices lead
    have hij : i ≠ j := by
      rintro rfl
      exact hne (Option.some.inj ((hkeyed n i hj).symm.trans (hkeyed name i hi)))
    simp [Array.getElem?_setIfInBounds, hij]

lemma get?_eq_none_of_replace (hf : f.replace? name v = none) : f.get? name = none := by
  unfold replace? at hf
  unfold get?
  cases hi : f.index[name]? with
  | none => rfl
  | some i =>
    have hlt := f.indexed name i hi
    simp [hi, hlt] at hf

/-! ## Frames and tables -/

/-- The index leads each name to its own binding, and the names are in the table. -/
structure WellNamed (names : Interner) (f : Frame) : Prop where
  keyed : ∀ (n : Name) (i : Nat), f.index[n]? = some i → f.bindings[i]?.map Prod.fst = some n
  known : ∀ n, f.contains n = true → n.slot < names.size

namespace WellNamed

lemma root {path : Option Path} : WellNamed names (.root path) := by
  constructor <;> simp [Frame.root, Frame.contains]

lemma child {parent : ObjectId} {depth : Nat} : WellNamed names (.child parent depth) := by
  constructor <;> simp [Frame.child, Frame.contains]

lemma mono (hf : f.WellNamed names) (hle : names.size ≤ names'.size) : f.WellNamed names' :=
  ⟨hf.keyed, fun n hn => Nat.lt_of_lt_of_le (hf.known n hn) hle⟩

lemma insert (hf : f.WellNamed names) (hname : name.slot < names.size)
    (hr : f.insert? name v = some f') : f'.WellNamed names := by
  obtain ⟨hbindings, hindex, -⟩ := of_insert hr
  refine ⟨fun n i hi => ?_, fun n hn => ?_⟩
  · rw [hindex, Std.TreeMap.getElem?_insert] at hi
    rw [hbindings]
    split at hi
    · next heq =>
      cases hi
      simp [Std.LawfulEqOrd.eq_of_compare heq]
    · rw [Array.getElem?_push, if_neg (Nat.ne_of_lt (f.indexed n i hi))]
      exact hf.keyed n i hi
  · simp only [contains, hindex, Std.TreeMap.contains_insert, Bool.or_eq_true, beq_iff_eq] at hn
    rcases hn with heq | hn
    · rwa [← Std.LawfulEqOrd.eq_of_compare heq]
    · exact hf.known n hn

lemma replace (hf : f.WellNamed names) (hr : f.replace? name v = some (old, f')) :
    f'.WellNamed names := by
  obtain ⟨i, bound, -, hbinding, hbindings, hindex, -⟩ := of_replace hr
  refine ⟨fun n j hj => ?_, fun n hn => hf.known n ?_⟩
  · rw [hindex] at hj
    have hold := hf.keyed n j hj
    rw [hbindings, Array.getElem?_setIfInBounds]
    split
    · next hij =>
      subst hij
      rw [hbinding] at hold
      simpa [(Array.getElem?_eq_some_iff.mp hbinding).1] using hold
    · exact hold
  · rwa [contains, hindex] at hn

/-- Overwriting one binding leaves the others alone. -/
lemma get?_replace_of_ne (hf : f.WellNamed names) (hr : f.replace? name v = some (old, f'))
    (hne : n ≠ name) : f'.get? n = f.get? n :=
  get?_replace_of_keyed hf.keyed hr hne

/-- What a frame has for a text stays when a text gets its name: a new name is bound nowhere. -/
lemma lookup_intern (hf : f.WellNamed names) (s t : String) :
    ((names.intern s).2.get? t).bind f.get? = (names.get? t).bind f.get? := by
  by_cases hts : t = s
  · subst hts
    cases hn : names.get? t with
    | some n => rw [Interner.intern_of_get? hn, hn]
    | none =>
      -- the new name is the next place of the table, and the frame binds names of the table only
      have hfresh : f.get? ⟨names.size⟩ = none := by
        rw [← Option.not_isSome_iff_eq_none, ← contains_eq_isSome_get?]
        exact fun hbound => Nat.lt_irrefl _ (hf.known _ hbound)
      rw [Interner.get?_intern, Interner.intern_of_none hn]
      exact hfresh
  · rw [Interner.get?_intern_of_ne hts]

end WellNamed

end Frame
end Patchbay
