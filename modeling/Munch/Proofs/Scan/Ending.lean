import Munch.Proofs.Scan.Calls

/-! Scans that have ended.

A call of `next` that finds no token has skipped what there was to skip, and leaves the
scan where it was stopped. Called again it skips nothing, and it is stopped there again
(`next_ended`). A scan to the end goes in one way only (`Runs.unique`). -/
namespace Munch.Scan

theorem exists_left_eq {s : Scan} (he : s.exhausted = false) : ∃ left, s.left = left + 1 := by
  have hbefore := not_exhausted_iff.mp he
  exact ⟨s.left - 1, by simp only [left]; omega⟩

variable [Engine] {t : Table} {previewLength : Option Int} {s : Scan} {k : Skipped}
  {step : Step}

theorem skip_of_error {f : Failure} (he : s.exhausted = false)
    (hi : t.ignoredLength s.input s.cursor = .error f) :
    s.skip t = { scan := s, failure := some f } := by
  obtain ⟨left, hleft⟩ := exists_left_eq he
  rw [skip, hleft, skipFrom, hi]
  simp [he]

theorem skip_of_nonpos {n : Int} (he : s.exhausted = false)
    (hi : t.ignoredLength s.input s.cursor = .ok n) (hn : n ≤ 0) : s.skip t = { scan := s } := by
  obtain ⟨left, hleft⟩ := exists_left_eq he
  rw [skip, hleft, skipFrom, hi]
  simp [he, hn]

/-- Where skipping has stopped, it stops at once. -/
theorem Skips.again (h : Skips t s k) :
    k.scan.skip t = { scan := k.scan, failure := k.failure } := by
  induction h with
  | finish he => exact skip_of_exhausted t he
  | failure he hi => exact skip_of_error he hi
  | rest he hi hn => exact skip_of_nonpos he hi hn
  | piece _ _ _ _ ih => exact ih

theorem Nexts.again (h : Nexts t previewLength k step)
    (hk : k.scan.skip t = { scan := k.scan, failure := k.failure })
    (hnone : step.tokens = []) :
    step.scan.next t previewLength = { step with records := [] } := by
  cases h with
  | ignoreFails hf => simp [next, hk, hf]
  | finish hf he => simp [next, hk, hf, he]
  | ruleFails hf he hl => simp [next, hk, hf, he, take, hl]
  | unmatched hf he hl => simp [next, hk, hf, he, take, hl]
  | found _ _ _ => exact absurd hnone (List.cons_ne_nil _ _)

/-- **A scan that has ended stays so**: after a call that finds no token, another one
comes to the same and takes nothing. -/
theorem next_ended (hnone : (s.next t previewLength).tokens = []) :
    (s.next t previewLength).scan.next t previewLength =
      { s.next t previewLength with records := [] } :=
  (next_nexts t previewLength s).again (skip_skips t s).again hnone

/-- A scan to the end goes in one way. -/
theorem Runs.unique {run run' : Run} (h : Runs t previewLength s run)
    (h' : Runs t previewLength s run') : run = run' := by
  induction h generalizing run' with
  | stop hr =>
    cases h' with
    | stop hr' =>
      cases hr.symm.trans hr'
      rfl
    | finish hr' => cases hr.symm.trans hr'
    | token hr' _ => cases hr.symm.trans hr'
  | finish hr =>
    cases h' with
    | stop hr' => cases hr.symm.trans hr'
    | finish _ => rfl
    | token hr' _ => cases hr.symm.trans hr'
  | token hr _ ih =>
    cases h' with
    | stop hr' => cases hr.symm.trans hr'
    | finish hr' => cases hr.symm.trans hr'
    | token hr' hrest' =>
      cases hr.symm.trans hr'
      rw [ih hrest']

end Munch.Scan
