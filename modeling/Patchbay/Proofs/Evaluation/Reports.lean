import Patchbay.Proofs.Evaluation.Rules

/-!
# Comparing programs

Programs take failures for results, so one of their runs may go on where another one fails in a
different way. The reports of two runs are the same as long as the first one records only failures
that the second one repeats.
-/

namespace Patchbay

variable {H : HostTypes} {env : Environment H} {self self' : Runner H} {c : Cursor}
  {s t : Session H} {report report' : RunReport} {body : List Stmt}

/-- A failure that is recorded stays recorded. -/
lemma failures_subset_runStatements
    (hrun : runStatements env self c report body s = .ok report' t) :
    report.failures ⊆ report'.failures := by
  induction body generalizing report s with
  | nil =>
    cases hrun
    exact List.Subset.refl _
  | cons st rest ih =>
    -- however the first statement ended, the report grows and the rest runs from the larger one
    have hrest : ∀ result t', runRest env self c report rest result t' = .ok report' t →
        report.failures ⊆ report'.failures := by
      intro result t' hrun
      have hadd : report.failures ⊆ (report.add result).failures := by
        rcases result with e | flow
        · exact List.subset_append_left _ _
        · cases flow <;> exact List.Subset.refl _
      unfold runRest at hrun
      split at hrun
      · cases hrun
        exact hadd
      · exact List.Subset.trans hadd (ih hrun)
    rw [runStatements_eq] at hrun
    split at hrun
    · exact hrest _ _ hrun
    · exact hrest _ _ hrun
    · cases hrun

/-- The failure of a statement is recorded. -/
lemma mem_failures_runRest {e : EvalError} {rest : List Stmt}
    (hrun : runRest env self c report rest (.error e) s = .ok report' t) :
    e ∈ report'.failures := by
  have hrecorded : e ∈ (report.add (.error e)).failures :=
    List.mem_append_right _ (List.mem_singleton.mpr rfl)
  unfold runRest at hrun
  split at hrun
  · cases hrun
    exact hrecorded
  · exact failures_subset_runStatements hrun hrecorded

namespace Regime

variable {R : Regime H} {limit : Nat}

/-- How the outcome of a second run relates to that of a first one. What holds of the heap holds of
the one that is left. -/
inductive Reports (R : Regime H) :
    Outcome (Session H) RunReport → Outcome (Session H) RunReport → Prop where
  | ok {report : RunReport} {t : Session H} {o : Outcome (Session H) RunReport} :
      R.Holds t.heap → ((∀ e ∈ report.failures, R.Repeats e.cause) → o = .ok report t) →
      Reports R (.ok report t) o
  | outOfFuel {o : Outcome (Session H) RunReport} : R.stall.Allows (o = .outOfFuel) →
      Reports R .outOfFuel o

/-- Nothing is asked of the second run once the first one has recorded a failure that need not be
repeated. -/
lemma Reports.of_failure {o o' o'' : Outcome (Session H) RunReport} (hr : R.Reports o o')
    {e : EvalError}
    (he : ¬ R.Repeats e.cause) (hrecorded : ∀ report t, o = .ok report t → e ∈ report.failures) :
    R.Reports o o'' := by
  cases hr with
  | ok ht hsame => exact .ok ht fun hall => absurd (hall e (hrecorded _ _ rfl)) he
  | outOfFuel hs =>
    exact .outOfFuel (hs.of_ne_alike fun halike => he (R.strict halike e.cause))

lemma Reports.of_ok {R : Regime H} {o : Outcome (Session H) RunReport}
    (hr : R.Reports (.ok report t) o) (hall : ∀ e ∈ report.failures, R.Repeats e.cause) :
    o = .ok report t := by
  cases hr with
  | ok _ hsame => exact hsame hall

/-- If neither run gets ahead of the other, they are the same. -/
lemma Reports.eq {o o' : Outcome (Session H) RunReport} (hr : R.Reports o o')
    (hstall : R.stall = .alike) : o' = o := by
  cases hr with
  | ok _ hsame => exact hsame fun e _ => R.strict hstall e.cause
  | outOfFuel hs =>
    rw [hstall] at hs
    exact hs

/-- If statements match, so do programs. -/
lemma reports_runStatements (hcollect : ∀ h bound, R.Holds h → R.Holds (h.collect bound []).2)
    (hself : ∀ st s, R.Permits st.loopFree → R.Holds s.heap →
      R.Matches (fun t => R.Holds t.heap) (self.stmt c st s) (self'.stmt c st s))
    (hp : R.Permits (Stmt.allLoopFree body)) (hs : R.Holds s.heap) :
    R.Reports (runStatements env self c report body s)
      (runStatements (env.withLimit limit) self' c report body s) := by
  induction body generalizing report s with
  | nil => exact .ok hs fun _ => rfl
  | cons st rest ih =>
    obtain ⟨hst, hrest⟩ := permits_and.mp hp
    have hnext : ∀ result t, R.Holds t.heap →
        R.Reports (runRest env self c report rest result t)
          (runRest (env.withLimit limit) self' c report rest result t) := by
      intro result t ht
      have hcollected : R.Holds (t.collected env).heap := by
        unfold Session.collected
        split
        · exact hcollect _ _ ht
        · exact ht
      unfold runRest
      split
      · exact .ok ht fun _ => rfl
      · exact ih hrest hcollected
    have hmatch := hself st s hst hs
    rw [runStatements_eq, runStatements_eq]
    generalize self.stmt c st s = o, self'.stmt c st s = o' at hmatch
    cases hmatch with
    | ok ht => exact hnext _ _ ht
    | @error e t o' ht hrep =>
      by_cases he : R.Repeats e.cause
      · rw [hrep he]
        exact hnext _ _ ht
      · -- the first run records the failure, so the second one may go on as it likes
        exact (hnext (.error e) t ht).of_failure he fun _ _ hrun => mem_failures_runRest hrun
    | outOfFuel hstall =>
      refine .outOfFuel (hstall.imp fun ho => ?_)
      rw [ho]

end Regime
end Patchbay
