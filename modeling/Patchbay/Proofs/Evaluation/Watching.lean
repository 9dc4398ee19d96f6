import Patchbay.Proofs.Evaluation.Limits

/-!
# Watching evaluations

What is said of every expression that is evaluated on the way, however deep it is nested, is said by
watching. A watched evaluation does not end if an expression in it comes to a value that is not
good. So where it does end, and ends as it does unwatched, all values on the way are good.

An evaluation without fuel does not end either. To tell the two apart, an evaluation that is out of
fuel may be made to fail, for a cause that is no cause of another failure.
-/

namespace Patchbay

variable {H : HostTypes} {env : Environment H} {c : Cursor} {s : Session H} {fuel : Nat}
  {good good' : Value → Session H → Prop}

open Classical in
/-- An evaluation that ends with good values only. -/
noncomputable def Eval.watched (good : Value → Session H → Prop) (m : Eval H Value) :
    Eval H Value :=
  fun s =>
    match m s with
    | .ok v t => if good v t then .ok v t else .outOfFuel
    | o => o

/-- A job whose value is watched, if it is an expression. -/
noncomputable def Job.watched (good : Value → Session H → Prop) :
    (j : Job) → Eval H j.Result → Eval H j.Result
  | .expr _, m => m.watched good
  | .stmt _, m => m
  | .loop _, m => m

/-- What is done without fuel. -/
abbrev Spent (H : HostTypes) : Type 1 := {α : Type} → Eval H α

/-- Do a job with an amount of fuel, and watch all expressions. -/
noncomputable def watchedJob (env : Environment H) (spent : Spent H)
    (good : Value → Session H → Prop) : Nat → Cursor → (j : Job) → Eval H j.Result
  | 0, _, _ => spent
  | fuel + 1, c, j =>
    j.watched good (Runner.step env (.ofJobs spent (watchedJob env spent good fuel)) c j)

/-- The evaluator with an amount of fuel that watches all expressions. -/
noncomputable def watchedRunner (env : Environment H) (spent : Spent H)
    (good : Value → Session H → Prop)
    (fuel : Nat) : Runner H := .ofJobs spent (watchedJob env spent good fuel)

lemma Eval.watched_true {m : Eval H Value} : m.watched (fun _ _ => True) = m := by
  funext s
  unfold watched
  cases m s <;> simp

/-- The evaluator is the one for which all values are good. -/
lemma runner_eq_watched :
    runner env fuel = watchedRunner env Eval.diverge (fun _ _ => True) fuel := by
  suffices hjob : runJob env fuel = watchedJob env Eval.diverge (fun _ _ => True) fuel by
    rw [runner, hjob, watchedRunner]
  induction fuel with
  | zero => rfl
  | succ fuel ih =>
    funext c j
    rw [runJob, watchedJob, ih]
    cases j with
    | expr e => exact Eval.watched_true.symm
    | stmt st => rfl
    | loop l => rfl

namespace Regime

variable {Repeats : Cause → Prop} {depth : Nat} {spent spent' : Spent H}

lemma Matches.watched {P : Session H → Prop} {m m' : Eval H Value}
    (hm : (finishing Repeats).Matches P (m s) (m' s)) (hgood : ∀ v t, good v t → good' v t) :
    (finishing Repeats).Matches P (m.watched good s) (m'.watched good' s) := by
  unfold Eval.watched
  generalize m s = o, m' s = o' at hm ⊢
  cases hm with
  | @ok v t ht =>
    by_cases hv : good v t
    · simpa only [if_pos hv, if_pos (hgood v t hv)] using .ok ht
    · simpa only [if_neg hv] using .outOfFuel trivial
  | error ht hrep =>
    refine .error ht fun he => ?_
    rw [hrep he]
  | outOfFuel hs => exact .outOfFuel trivial

/-- A watched evaluation compares with one for which more is good. -/
lemma related_watched (hspent : ∀ (depth : Nat) (α : Type),
      (finishing Repeats).Compares depth (spent : Eval H α) spent')
    (hgood : ∀ v t, good v t → good' v t) (fuel depth : Nat) :
    (finishing Repeats).RelatedCalls env depth (watchedRunner env spent good fuel)
      (watchedRunner env spent' good' fuel) := by
  have hg : (finishing Repeats).Governs env := governs_of_trivial (fun _ => trivial) trivial
  have hlimit : (finishing Repeats : Regime H).Admits env.config.maxDepth env.config.maxDepth :=
    .refl
  induction fuel generalizing depth with
  | zero =>
    exact ⟨hg, fun _ _ _ _ => hspent _ _, fun _ _ _ _ => hspent _ _, fun _ _ _ _ => hspent _ _,
      .inr (hspent _ _)⟩
  | succ fuel ih =>
    refine ⟨hg, ?_, ?_, ?_, .inr (hspent _ _)⟩
    · rintro c rfl e hp
      exact fun s hs => (compares_evalExpr hlimit (fun _ => ih _) hp s hs).watched hgood
    · rintro c rfl st hp
      exact compares_execStmt hlimit (fun _ => ih _) hp
    · rintro hl c rfl l
      exact compares_loopRound hl (ih c.depth) l

lemma matches_watched_stmt (hspent : ∀ (depth : Nat) (α : Type),
      (finishing Repeats).Compares depth (spent : Eval H α) spent')
    (hgood : ∀ v t, good v t → good' v t) (st : Stmt) (s : Session H) :
    (finishing Repeats).Matches (fun _ => True) ((watchedRunner env spent good fuel).stmt c st s)
      ((watchedRunner env spent' good' fuel).stmt c st s) := by
  have hlimit : (finishing Repeats : Regime H).Admits env.config.maxDepth env.config.maxDepth :=
    .refl
  cases fuel with
  | zero => exact (hspent _ _ s ⟨trivial, rfl⟩).mono fun _ _ => trivial
  | succ fuel =>
    have hcalls : ∀ depth, (finishing Repeats).RelatedCalls env depth
        (watchedRunner env spent good fuel)
        (watchedRunner env spent' good' fuel) := related_watched hspent hgood fuel
    exact (matches_execStmt hlimit (fun _ => hcalls _) (.of_loops trivial) trivial).mono
      fun _ _ => trivial

/-- What ends, does so in the same way if the regime repeats its failures. -/
lemma Matches.eq_of_ends {α : Type} {P : Session H → Prop} {o o' : Outcome (Session H) α}
    (hm : (finishing Repeats).Matches P o o') (hends : o ≠ .outOfFuel)
    (hrep : ∀ e t, o = .error e t → Repeats e.cause) : o' = o := by
  cases hm with
  | ok _ => rfl
  | error _ h => exact h (hrep _ _ rfl)
  | outOfFuel _ => exact absurd rfl hends

end Regime

open Regime

variable {st : Stmt}

/-- An evaluation that ends does the same if it fails where there is no fuel. -/
lemma spending_stmt_eq (hends : (runner env fuel).stmt c st s ≠ .outOfFuel) (cause : Cause) :
    (watchedRunner env (fail cause) (fun _ _ => True) fuel).stmt c st s =
      (runner env fuel).stmt c st s := by
  have hmatches : (finishing fun _ => True).Matches (fun _ => True) ((runner env fuel).stmt c st s)
      ((watchedRunner env (fail cause) (fun _ _ => True) fuel).stmt c st s) := by
    rw [runner_eq_watched]
    exact matches_watched_stmt (fun _ _ _ _ => .outOfFuel trivial) (fun _ _ hv => hv) st s
  exact hmatches.eq_of_ends hends fun _ _ _ => trivial

/-- Every expression that is evaluated while a statement is executed, however deep it is nested,
comes to a good value. If the statement does not end, or not with so much fuel, that is said of what
is evaluated before the fuel is spent: the watched evaluation fails then, and comes to no other
value before. -/
structure Stmt.ValuesGood (env : Environment H) (good : Value → Session H → Prop) (c : Cursor)
    (st : Stmt) (s : Session H) : Prop where
  ends : ∀ fuel, (runner env fuel).stmt c st s ≠ .outOfFuel →
    (watchedRunner env Eval.diverge good fuel).stmt c st s = (runner env fuel).stmt c st s
  spent : ∀ fuel cause, (watchedRunner env (fail cause) good fuel).stmt c st s ≠ .outOfFuel

/-- It is enough to watch evaluations that fail where there is no fuel. -/
lemma Stmt.valuesGood
    (hgood : ∀ fuel cause, (watchedRunner env (fail cause) good fuel).stmt c st s ≠ .outOfFuel) :
    st.ValuesGood env good c s := by
  refine ⟨fun fuel hends => ?_, hgood⟩
  -- a cause that no failure of the evaluation has
  obtain ⟨cause, hcause⟩ : ∃ cause : Cause, ∀ e t, (runner env fuel).stmt c st s = .error e t →
      e.cause ≠ cause := by
    cases hr : (runner env fuel).stmt c st s with
    | error e t =>
      by_cases he : e.cause = .recursionLimit 0
      · refine ⟨.recursionLimit 1, fun e' t' heq => ?_⟩
        cases heq
        rw [he]
        exact fun h => by cases h
      · refine ⟨.recursionLimit 0, fun e' t' heq => ?_⟩
        cases heq
        exact he
    | ok flow t => exact ⟨.recursionLimit 0, fun _ _ heq => by cases heq⟩
    | outOfFuel => exact absurd hr hends
  have hspending := spending_stmt_eq hends cause
  have hwatched : (watchedRunner env (fail cause) good fuel).stmt c st s =
      (runner env fuel).stmt c st s := by
    have hmatches : (finishing fun _ => True).Matches (fun _ => True)
        ((watchedRunner env (fail cause) good fuel).stmt c st s)
        ((watchedRunner env (fail cause) (fun _ _ => True) fuel).stmt c st s) :=
      matches_watched_stmt (fun _ _ _ hs => .error hs fun _ => rfl) (fun _ _ _ => trivial) st s
    rw [← hspending, hmatches.eq_of_ends (hgood fuel cause) fun _ _ _ => trivial]
  -- it fails nowhere for want of fuel, so it does not matter what is done there
  have hmatches : (finishing (· ≠ cause)).Matches (fun _ => True)
      ((watchedRunner env (fail cause) good fuel).stmt c st s)
      ((watchedRunner env Eval.diverge good fuel).stmt c st s) :=
    matches_watched_stmt (fun _ _ _ hs => .error hs fun hne => (hne rfl).elim)
      (fun _ _ hv => hv) st s
  rw [hwatched] at hmatches
  exact hmatches.eq_of_ends hends hcause

end Patchbay
