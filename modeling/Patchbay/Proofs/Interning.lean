import Mathlib.Data.Finset.Card
import Patchbay.Proofs.Frames

/-!
# The life of a table of names

A table of names is asked for the name of a text, with or without leave to take the text in, and for
the text of a name. After any row of such calls its row has the empty text and the interned ones in
the order of their first use, and the search tree leads each of them to its own place. A name that
was handed out therefore stands for its text at every later time, and names and texts answer to each
other one to one.
-/

namespace Patchbay

/-- One more entry is the last to appear for the first time, unless it has appeared before. -/
lemma eraseDups_concat {α : Type*} [BEq α] [LawfulBEq α] (l : List α) (a : α) :
    (l ++ [a]).eraseDups = if a ∈ l then l.eraseDups else l.eraseDups ++ [a] := by
  rw [List.eraseDups_append]
  split <;> next ha => simp [List.removeAll, List.eraseDups_cons, ha]

namespace Interner

/-! ## Calls and their answers -/

/-- What a table can be asked for. -/
inductive Call where
  /-- The name of a text, which enters the table if it is new. -/
  | intern (s : String)
  /-- The name of a text that is in the table. -/
  | get (s : String)
  /-- The text of a name. -/
  | lookup (n : Name)
deriving DecidableEq

/-- What a table answers. -/
inductive Answer where
  | name (n : Name)
  | noName
  | text (s : String)
deriving DecidableEq

namespace Call

/-- The answer to a call, and the table after it. -/
def run : Call → Interner → Answer × Interner
  | .intern s, names => (.name (names.intern s).1, (names.intern s).2)
  | .get s, names => ((names.get? s).elim .noName .name, names)
  | .lookup n, names => (.text (names.lookup n), names)

/-- The texts that a call interns. -/
def interns : Call → List String
  | .intern s => [s]
  | .get _ => []
  | .lookup _ => []

end Call

/-- The table after a row of calls. -/
def after (names : Interner) (calls : List Call) : Interner :=
  calls.foldl (fun names c => (c.run names).2) names

/-- The answers to a row of calls. -/
def answers : Interner → List Call → List Answer
  | _, [] => []
  | names, c :: calls => (c.run names).1 :: answers (c.run names).2 calls

/-- The texts that a row of calls interns, one after the other. -/
def interned (calls : List Call) : List String := calls.flatMap Call.interns

/-- In a row of calls to a new table, the call at a place asks for the name of a text and is
answered with it. -/
def Named (calls : List Call) (i : Nat) (s : String) (n : Name) : Prop :=
  (calls[i]? = some (.intern s) ∨ calls[i]? = some (.get s)) ∧
    (answers new calls)[i]? = some (.name n)

/-- A table that has interned the texts of a log: its row has the empty text and those of the log,
in the order of their first use, and the search tree leads each of them to its place. -/
structure Records (log : List String) (names : Interner) : Prop where
  texts : names.strings.toList = ("" :: log).eraseDups
  places : ∀ s n, names.get? s = some n ↔ names.strings[n.slot]? = some s

variable {names : Interner} {log : List String} {calls : List Call} {s t : String} {m n : Name}
  {i j : Nat}

/-! ## The table and its log -/

namespace Records

lemma sound (hr : names.Records log) : names.Sound := fun s n => (hr.places s n).mp

/-- The named texts are the empty one and those of the log. -/
lemma exists_get?_iff (hr : names.Records log) : (∃ n, names.get? s = some n) ↔ s ∈ "" :: log := by
  rw [← List.mem_eraseDups, ← hr.texts, Array.mem_toList_iff, Array.mem_iff_getElem?]
  constructor
  · rintro ⟨n, hn⟩
    exact ⟨n.slot, (hr.places s n).mp hn⟩
  · rintro ⟨i, hi⟩
    exact ⟨⟨i⟩, (hr.places s ⟨i⟩).mpr hi⟩

lemma get?_eq_none_iff (hr : names.Records log) : names.get? s = none ↔ s ∉ "" :: log := by
  rw [← hr.exists_get?_iff, ← Option.ne_none_iff_exists', not_not]

/-- Names are equal exactly if their texts are. -/
lemma name_eq_iff (hr : names.Records log) (hm : names.get? s = some m)
    (hn : names.get? t = some n) : m = n ↔ s = t := by
  constructor
  · rintro rfl
    exact hr.sound.get?_injective hm hn
  · rintro rfl
    exact Option.some.inj (hm.symm.trans hn)

/-- Every place of the table is the name of the text there. -/
lemma get?_lookup (hr : names.Records log) (hlt : n.slot < names.size) :
    names.get? (names.lookup n) = some n := by
  have htext : names.strings[n.slot]? = some names.strings[n.slot] := Array.getElem?_eq_getElem hlt
  rw [lookup, htext, Option.getD_some]
  exact (hr.places _ n).mpr htext

/-- A text that is interned again leaves the table, and a new one gets the next place. -/
lemma intern (hr : names.Records log) (s : String) : (names.intern s).2.Records (log ++ [s]) := by
  have hlog : ("" :: (log ++ [s])).eraseDups = (("" :: log) ++ [s]).eraseDups := rfl
  cases hn : names.get? s with
  | some n =>
    have hold : s ∈ "" :: log := hr.exists_get?_iff.mp ⟨n, hn⟩
    rw [intern_of_get? hn]
    exact ⟨by rw [hlog, eraseDups_concat, if_pos hold, hr.texts], hr.places⟩
  | none =>
    have hnew : s ∉ "" :: log := hr.get?_eq_none_iff.mp hn
    refine ⟨?_, fun t n => ⟨hr.sound.intern t n, fun ht => ?_⟩⟩
    · rw [intern_of_none hn, hlog, eraseDups_concat, if_neg hnew, Array.toList_push, hr.texts]
    · rw [intern_of_none hn, Array.getElem?_push] at ht
      split at ht
      · next hslot =>
        cases ht
        rw [get?_intern, intern_of_none hn]
        exact congrArg some (congrArg Name.mk hslot.symm)
      · -- a place that was there before has its old text, which is not the new one
        have hget := (hr.places t n).mpr ht
        have hne : t ≠ s := by
          rintro rfl
          simp [hn] at hget
        rwa [get?_intern_of_ne hne]

/-- Reading leaves the table as it is. -/
lemma run (hr : names.Records log) (c : Call) : (c.run names).2.Records (log ++ c.interns) := by
  cases c with
  | intern s => exact hr.intern s
  | get s => exact (List.append_nil log).symm ▸ hr
  | lookup n => exact (List.append_nil log).symm ▸ hr

lemma after (hr : names.Records log) (calls : List Call) :
    (names.after calls).Records (log ++ interned calls) := by
  induction calls generalizing names log with
  | nil => exact (List.append_nil log).symm ▸ hr
  | cons c calls ih =>
    have hlog : log ++ interned (c :: calls) = log ++ c.interns ++ interned calls := by
      rw [interned, List.flatMap_cons, List.append_assoc, interned]
    exact hlog ▸ ih (hr.run c)

/-- The texts of the table are distinct, as each has one place. -/
lemma nodup (hr : names.Records log) : names.strings.toList.Nodup := by
  rw [List.nodup_iff_getElem?_ne_getElem?]
  intro i j hij hlt heq
  obtain ⟨s, hj⟩ : ∃ s, names.strings[j]? = some s := ⟨_, Array.getElem?_eq_getElem hlt⟩
  have hi : names.strings[i]? = some s := by simpa [hj] using heq
  have hplace : some (⟨i⟩ : Name) = some ⟨j⟩ :=
    ((hr.places s ⟨i⟩).mpr hi).symm.trans ((hr.places s ⟨j⟩).mpr hj)
  exact Nat.ne_of_lt hij (congrArg Name.slot (Option.some.inj hplace))

/-- The table has the empty text and the distinct others of the log. -/
lemma size_eq (hr : names.Records log) : names.size = 1 + (log.toFinset.erase "").card := by
  have htexts : names.strings.toList.toFinset = insert "" log.toFinset := by
    rw [hr.texts]
    ext s
    simp
  calc names.size
    _ = names.strings.toList.toFinset.card := (List.toFinset_card_of_nodup hr.nodup).symm
    _ = ((insert "" log.toFinset).erase "").card + 1 := by
      rw [htexts, Finset.card_erase_add_one (Finset.mem_insert_self _ _)]
    _ = 1 + (log.toFinset.erase "").card := by rw [Finset.erase_insert_eq_erase, Nat.add_comm]

end Records

lemma records_new : new.Records [] := by
  refine ⟨rfl, fun s ⟨slot⟩ => ⟨sound_new s ⟨slot⟩, fun hn => ?_⟩⟩
  cases slot with
  | zero =>
    cases hn
    simp [get?, new, Name.empty]
  | succ slot => simp [new] at hn

/-! ## Single calls -/

lemma lookup_of_get? (hs : names.Sound) (hn : names.get? s = some n) : names.lookup n = s := by
  rw [lookup, hs s n hn, Option.getD_some]

lemma lookup_of_size_le (hle : names.size ≤ n.slot) : names.lookup n = "<unknown>" := by
  rw [lookup, Array.getElem?_eq_none hle, Option.getD_none]

/-- A name that is given stays with its text. -/
lemma get?_run (hn : names.get? s = some n) (c : Call) : (c.run names).2.get? s = some n := by
  cases c with
  | intern t =>
    change (names.intern t).2.get? s = some n
    by_cases hst : s = t
    · rw [← hst, get?_intern, intern_of_get? hn]
    · rwa [get?_intern_of_ne hst]
  | get t => exact hn
  | lookup m => exact hn

lemma get?_run_of_name {c : Call} (hc : c = .intern s ∨ c = .get s)
    (ha : (c.run names).1 = .name n) : (c.run names).2.get? s = some n := by
  obtain rfl | rfl := hc
  · cases ha
    exact get?_intern
  · change (names.get? s).elim Answer.noName Answer.name = .name n at ha
    change names.get? s = some n
    cases hn : names.get? s with
    | none => simp [hn] at ha
    | some m => simpa [hn] using ha

/-! ## Rows of calls -/

lemma after_append (calls later : List Call) :
    names.after (calls ++ later) = (names.after calls).after later :=
  List.foldl_append

/-- Each call is answered by the table that the calls before it leave. -/
lemma getElem?_answers {c : Call} (hc : calls[i]? = some c) :
    (answers names calls)[i]? = some (c.run (names.after (calls.take i))).1 := by
  induction calls generalizing names i with
  | nil => simp at hc
  | cons d calls ih =>
    cases i with
    | zero =>
      cases hc
      rfl
    | succ i => exact ih hc

/-- Reading writes nothing, so the interned texts alone leave the same table. -/
lemma after_eq_after_interned (names : Interner) (calls : List Call) :
    names.after calls = names.after ((interned calls).map .intern) := by
  induction calls generalizing names with
  | nil => rfl
  | cons c calls ih =>
    cases c with
    | intern s => exact ih (names.intern s).2
    | get s => exact ih names
    | lookup n => exact ih names

lemma mem_interned : s ∈ interned calls ↔ .intern s ∈ calls := by
  rw [interned, List.mem_flatMap]
  constructor
  · rintro ⟨c, hc, hs⟩
    cases c with
    | intern t =>
      cases List.mem_singleton.mp hs
      exact hc
    | get t => cases hs
    | lookup n => cases hs
  · intro hc
    exact ⟨_, hc, List.mem_singleton_self s⟩

lemma get?_after (hn : names.get? s = some n) (calls : List Call) :
    (names.after calls).get? s = some n := by
  induction calls generalizing names with
  | nil => exact hn
  | cons c calls ih => exact ih (get?_run hn c)

lemma get?_empty (calls : List Call) : (new.after calls).get? "" = some .empty :=
  get?_after (by simp [get?, new]) calls

lemma records_after_new (calls : List Call) : (new.after calls).Records (interned calls) :=
  records_new.after calls

/-- A name that was handed out is the name of its text ever after. -/
lemma Named.get?_of_lt (hn : Named calls i s n) (hij : i < j) :
    (new.after (calls.take j)).get? s = some n := by
  obtain ⟨hcall, hanswer⟩ := hn
  obtain ⟨c, hci, hc⟩ : ∃ c, calls[i]? = some c ∧ (c = .intern s ∨ c = .get s) := by
    obtain hcall | hcall := hcall
    · exact ⟨_, hcall, .inl rfl⟩
    · exact ⟨_, hcall, .inr rfl⟩
  have hstep : new.after (calls.take (i + 1)) = (c.run (new.after (calls.take i))).2 := by
    rw [List.take_add_one, hci, after_append]
    rfl
  have hname : (c.run (new.after (calls.take i))).1 = .name n :=
    Option.some.inj ((getElem?_answers hci).symm.trans hanswer)
  -- the call itself leaves the name with its text, and so do the calls up to the later time
  obtain ⟨k, rfl⟩ := Nat.exists_eq_add_of_le hij
  rw [List.take_add, after_append, hstep]
  exact get?_after (get?_run_of_name hc hname) _

lemma Named.get?_after (hn : Named calls i s n) : (new.after calls).get? s = some n := by
  have hlt : i < calls.length := by
    obtain hcall | hcall := hn.1 <;> exact (List.getElem?_eq_some_iff.mp hcall).1
  rw [← List.take_length (l := calls)]
  exact hn.get?_of_lt hlt

lemma named_of_intern (hc : calls[i]? = some (.intern s)) : ∃ n, Named calls i s n :=
  ⟨((new.after (calls.take i)).intern s).1, .inl hc, getElem?_answers hc⟩

/-- The names that can be found are those of the empty text and of the texts that were interned
before. -/
lemma answer_get (hc : calls[j]? = some (.get s)) :
    (s = "" ∨ .intern s ∈ calls.take j → ∃ n, Named calls j s n) ∧
      (s ≠ "" → .intern s ∉ calls.take j → (answers new calls)[j]? = some .noName) := by
  have hr := records_after_new (calls.take j)
  have hanswer : (answers new calls)[j]? =
      some (((new.after (calls.take j)).get? s).elim .noName .name) := getElem?_answers hc
  constructor
  · intro hs
    obtain ⟨n, hn⟩ := hr.exists_get?_iff.mpr (by simpa [mem_interned] using hs)
    exact ⟨n, .inr hc, by rw [hanswer, hn]; rfl⟩
  · intro hne hs
    rw [hanswer, hr.get?_eq_none_iff.mpr (by simp [mem_interned, hne, hs])]
    rfl

/-- What holds of a row of calls to a new table. -/
structure Naming (calls : List Call) : Prop where
  /-- Interning answers with a name. -/
  answered : ∀ i s, calls[i]? = some (.intern s) → ∃ n, Named calls i s n
  /-- The names that are handed out at two times are equal exactly if their texts are. -/
  faithful : ∀ i j s t m n, Named calls i s m → Named calls j t n → (m = n ↔ s = t)
  /-- From then on the name leads back to its text. -/
  readable : ∀ i j s n, Named calls i s n → i < j → calls[j]? = some (.lookup n) →
    (answers new calls)[j]? = some (.text s)
  /-- A text is found exactly if it is empty or was interned before. -/
  found : ∀ j s, calls[j]? = some (.get s) →
    (s = "" ∨ .intern s ∈ calls.take j → ∃ n, Named calls j s n) ∧
    (s ≠ "" → .intern s ∉ calls.take j → (answers new calls)[j]? = some .noName)
  /-- Reading leaves no trace in the table. -/
  traceless : new.after calls = new.after ((interned calls).map .intern)
  /-- The table has the empty text and the distinct others that were interned. -/
  size : (new.after calls).size = 1 + ((interned calls).toFinset.erase "").card
  /-- Each place of the table is the name of the text there. -/
  places : ∀ n, n.slot < (new.after calls).size →
    (new.after calls).get? ((new.after calls).lookup n) = some n
  /-- A place that the table has not reached has an unknown text. -/
  unknown : ∀ j n, calls[j]? = some (.lookup n) → (new.after (calls.take j)).size ≤ n.slot →
    (answers new calls)[j]? = some (.text "<unknown>")
  /-- The empty text alone has the empty name, and a name lies within the table from the start, so
  that the names of a table of at most `2 ^ 32` texts fit in 32 bits. -/
  within : ∀ i s n, Named calls i s n →
    (n = .empty ↔ s = "") ∧ n.slot < (new.after (calls.take (i + 1))).size

/-- Names and texts belong together one to one, whatever is called in whatever order. -/
theorem naming_bijective (calls : List Call) : Naming calls := by
  -- the table after some calls records the texts that were interned, and names are places in it
  have hr := records_after_new calls
  refine ⟨fun i s => named_of_intern, fun i j s t m n hm hn => ?_, fun i j s n hn hij hc => ?_,
    fun j s => answer_get, after_eq_after_interned new calls, hr.size_eq, fun n => hr.get?_lookup,
    fun j n hc hle => ?_, fun i s n hn => ⟨?_, ?_⟩⟩
  · exact hr.name_eq_iff hm.get?_after hn.get?_after
  · rw [getElem?_answers hc]
    exact congrArg (some ∘ Answer.text)
      (lookup_of_get? (records_after_new _).sound (hn.get?_of_lt hij))
  · rw [getElem?_answers hc]
    exact congrArg (some ∘ Answer.text) (lookup_of_size_le hle)
  · exact hr.name_eq_iff hn.get?_after (get?_empty calls)
  · exact (records_after_new _).sound.slot_lt (hn.get?_of_lt (Nat.lt_succ_self i))

/-- Calls about a text before and after it enters, about two others, and about a name that no text
has. -/
def sampleCalls : List Call :=
  [.get "osc", .intern "osc", .lookup ⟨1⟩, .intern "gain", .get "osc", .intern "", .lookup ⟨7⟩]

theorem naming_bijective_sample :
    Named sampleCalls 1 "osc" ⟨1⟩ ∧ Named sampleCalls 3 "gain" ⟨2⟩ ∧ Named sampleCalls 5 "" .empty ∧
    Named sampleCalls 4 "osc" ⟨1⟩ ∧
    (answers new sampleCalls)[0]? = some .noName ∧
    (answers new sampleCalls)[2]? = some (.text "osc") ∧
    (answers new sampleCalls)[6]? = some (.text "<unknown>") ∧
    (new.after sampleCalls).size = 3 := by
  have hosc : Named sampleCalls 1 "osc" ⟨1⟩ := ⟨.inl rfl, by decide +kernel⟩
  have hgain : Named sampleCalls 3 "gain" ⟨2⟩ := ⟨.inl rfl, by decide +kernel⟩
  have hempty : Named sampleCalls 5 "" .empty := ⟨.inl rfl, by decide +kernel⟩
  have hnaming := naming_bijective sampleCalls
  obtain ⟨n, hfound⟩ := (hnaming.found 4 "osc" rfl).1 (.inr (by decide))
  have hn : n = ⟨1⟩ := (hnaming.faithful 4 1 "osc" "osc" n ⟨1⟩ hfound hosc).mpr rfl
  exact ⟨hosc, hgain, hempty, hn ▸ hfound, (hnaming.found 0 "osc" rfl).2 (by decide) (by decide),
    hnaming.readable 1 2 "osc" ⟨1⟩ hosc (by decide) rfl, hnaming.unknown 6 ⟨7⟩ rfl
      (by decide +kernel),
    hnaming.size.trans (by decide)⟩

end Interner
end Patchbay
