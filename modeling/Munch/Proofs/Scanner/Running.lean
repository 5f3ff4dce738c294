import Munch.Proofs.Table.Matching
import Munch.Scanner

/-! What scanners come to, if they come to anything.

A scanner that a pattern takes back may skip for ever. `Skips` and `Runs` say how skipping and
scanning to the end go where they have a result, and they have one exactly if they go so
(`skip_eq_some_iff`, `run_eq_some_iff`). Besides, a call that gives no token is found again
as it was by the call after it (`next_ended`). -/
namespace Munch.Scanner

@[simp] theorem consume_input (s : Scanner) (n : Int) : (s.consume n).input = s.input := rfl

@[simp] theorem consume_cursor (s : Scanner) (n : Int) : (s.consume n).cursor = s.cursor + n := rfl

@[simp] theorem consume_position (s : Scanner) (n : Int) :
    (s.consume n).position = s.position.advance (s.piece n) := rfl

theorem exhausted_iff {s : Scanner} : s.exhausted = true ↔ s.input.length ≤ s.cursor := by
  simp [exhausted]

/-! ### Skipping -/

variable [Engine]

/-- How skipping goes: piece by piece, up to the end of the text, to a pattern that fails, or to
a place where nothing is to be ignored. -/
inductive Skips (t : Table) : Scanner → Skipped → Prop
  | finish {s} : s.exhausted = true → Skips t s { scanner := s }
  | failure {s f} : s.exhausted = false → t.ignoredLength s.input s.cursor = .error f →
      Skips t s { scanner := s, failure := some f }
  | rest {s} : s.exhausted = false → t.ignoredLength s.input s.cursor = .ok 0 →
      Skips t s { scanner := s }
  | piece {s n k} : s.exhausted = false → t.ignoredLength s.input s.cursor = .ok n → n ≠ 0 →
      Skips t (s.consume n) k → Skips t s { k with pieces := s.piece n :: k.pieces }

variable {t : Table} {s : Scanner} {k : Skipped}

theorem skip_of_exhausted (he : s.exhausted = true) : s.skip t = some { scanner := s } := by
  rw [skip, if_pos he]

theorem skip_of_failure {f : Failure} (he : s.exhausted = false)
    (hi : t.ignoredLength s.input s.cursor = .error f) :
    s.skip t = some { scanner := s, failure := some f } := by
  rw [skip, he, hi]
  rfl

theorem skip_of_zero (he : s.exhausted = false) (hi : t.ignoredLength s.input s.cursor = .ok 0) :
    s.skip t = some { scanner := s } := by
  rw [skip, he, hi]
  rfl

theorem skip_of_length {n : Int} (he : s.exhausted = false)
    (hi : t.ignoredLength s.input s.cursor = .ok n) (hn : n ≠ 0) :
    s.skip t = ((s.consume n).skip t).map
      fun rest => { rest with pieces := s.piece n :: rest.pieces } := by
  rw [skip, he, hi]
  simp only [Bool.false_eq_true, if_false, if_neg hn]
  cases (s.consume n).skip t <;> rfl

theorem Skips.skip_eq (h : Skips t s k) : s.skip t = some k := by
  induction h with
  | finish he => exact skip_of_exhausted he
  | failure he hi => exact skip_of_failure he hi
  | rest he hi => exact skip_of_zero he hi
  | piece he hi hn _ ih => rw [skip_of_length he hi hn, ih, Option.map_some]

theorem skips_of_skip (h : s.skip t = some k) : Skips t s k := by
  refine skip.partial_correctness t (Skips t) (fun skip ih s k h => ?_) s k h
  by_cases he : s.exhausted = true
  · rw [if_pos he] at h
    cases h
    exact .finish he
  · rw [if_neg he] at h
    have he' : s.exhausted = false := by simpa using he
    cases hi : t.ignoredLength s.input s.cursor with
    | error f =>
      simp only [hi, Option.some.injEq] at h
      exact h ▸ .failure he' hi
    | ok n =>
      by_cases hn : n = 0
      · subst hn
        simp only [hi, if_true, Option.some.injEq] at h
        exact h ▸ .rest he' hi
      · simp only [hi, if_neg hn] at h
        obtain ⟨rest, hrest, hk⟩ := Option.bind_eq_some_iff.mp h
        cases hk
        exact .piece he' hi hn (ih _ _ hrest)

theorem skip_eq_some_iff : s.skip t = some k ↔ Skips t s k := ⟨skips_of_skip, Skips.skip_eq⟩

/-- Where skipping has stopped, skipping again comes to the same and takes nothing. -/
theorem Skips.again (h : Skips t s k) : Skips t k.scanner { k with pieces := [] } := by
  induction h with
  | finish he => exact .finish he
  | failure he hi => exact .failure he hi
  | rest he hi => exact .rest he hi
  | piece _ _ _ _ ih => exact ih

/-! ### The next token -/

section Next
variable {previewLength : Option Int} {step : Step}

theorem next_eq_some_iff :
    s.next t previewLength = some step ↔ ∃ k, Skips t s k ∧ k.next t previewLength = step := by
  simp only [next, Option.map_eq_some_iff, skip_eq_some_iff]

/-- A step gives what the longest rule matches, as long as nothing has failed before. -/
theorem Skipped.next_of_longest {r : Rule} {n : Nat} (hf : k.failure = none)
    (he : k.scanner.exhausted = false)
    (hl : t.longest k.scanner.input k.scanner.cursor = .ok (some (r, n))) :
    (k.next t previewLength).result =
      .ok (some ⟨(t.relabel r (k.scanner.piece n)).1,
        (t.relabel r (k.scanner.piece n)).2,
        k.scanner.position.line, k.scanner.position.column⟩) := by
  simp [Skipped.next, hf, he, take, hl]

/-- A step that gives no token leaves the scanner where skipping has left it, and the same comes
of that place again. -/
theorem Skipped.next_again (h : ∀ token, (k.next t previewLength).result ≠ .ok (some token)) :
    (k.next t previewLength).scanner = k.scanner ∧
      Skipped.next t previewLength { k with pieces := [] } =
        ⟨k.scanner, [], (k.next t previewLength).result⟩ := by
  obtain ⟨s, pieces, failure⟩ := k
  cases failure with
  | some f => exact ⟨rfl, rfl⟩
  | none =>
    by_cases he : s.exhausted = true
    · simp [Skipped.next, he]
    · cases hl : t.longest s.input s.cursor with
      | error f => simp [Skipped.next, take, he, hl]
      | ok winner =>
        cases winner with
        | none => simp [Skipped.next, take, he, hl]
        | some winner =>
          simp [Skipped.next, take, he, hl] at h

/-- **A call that gives no token comes to the same again**, and takes nothing. -/
theorem next_ended (h : s.next t previewLength = some step)
    (hresult : ∀ token, step.result ≠ .ok (some token)) :
    step.scanner.next t previewLength = some ⟨step.scanner, [], step.result⟩ := by
  obtain ⟨k, hk, rfl⟩ := next_eq_some_iff.mp h
  obtain ⟨hscanner, hagain⟩ := Skipped.next_again hresult
  rw [hscanner]
  exact next_eq_some_iff.mpr ⟨_, hk.again, hagain⟩

theorem next_of_exhausted (he : s.exhausted = true) :
    s.next t previewLength = some ⟨s, [], .ok none⟩ := by
  rw [next, skip_of_exhausted he]
  simp [Skipped.next, he]

end Next

/-! ### Scans to the end -/

/-- How scanning to the end goes: token by token, up to an error or the end of the input. -/
inductive Runs (t : Table) (previewLength : Option Int) : Scanner → Run → Prop
  | stop {s step e} : s.next t previewLength = some step → step.result = .error e →
      Runs t previewLength s
        { scanner := step.scanner, records := step.records, stop := some e.ofIteration }
  | finish {s step} : s.next t previewLength = some step → step.result = .ok none →
      Runs t previewLength s { scanner := step.scanner, records := step.records }
  | token {s step token rest} : s.next t previewLength = some step →
      step.result = .ok (some token) → Runs t previewLength step.scanner rest →
      Runs t previewLength s { rest with
        records := step.records ++ rest.records, tokens := token :: rest.tokens }

variable {previewLength : Option Int} {run : Run}

theorem Runs.run_eq (h : Runs t previewLength s run) : s.run t previewLength = some run := by
  induction h with
  | stop hnext hr | finish hnext hr =>
    rw [Scanner.run, hnext, Option.bind_eq_bind, Option.bind_some, hr]
    rfl
  | token hnext hr _ ih =>
    rw [Scanner.run, hnext, Option.bind_eq_bind, Option.bind_some, hr, ih]
    rfl

theorem runs_of_run (h : s.run t previewLength = some run) : Runs t previewLength s run := by
  refine Scanner.run.partial_correctness t previewLength (Runs t previewLength)
    (fun run ih s result h => ?_) s run h
  obtain ⟨step, hnext, h⟩ := Option.bind_eq_some_iff.mp h
  cases hr : step.result with
  | error e =>
    rw [hr] at h
    cases h
    exact .stop hnext hr
  | ok found =>
    rw [hr] at h
    cases found with
    | none =>
      cases h
      exact .finish hnext hr
    | some token =>
      obtain ⟨rest, hrest, hresult⟩ := Option.bind_eq_some_iff.mp h
      cases hresult
      exact .token hnext hr (ih _ _ hrest)

theorem run_eq_some_iff : s.run t previewLength = some run ↔ Runs t previewLength s run :=
  ⟨runs_of_run, Runs.run_eq⟩

theorem run_of_exhausted (he : s.exhausted = true) :
    s.run t previewLength = some { scanner := s } :=
  run_eq_some_iff.mpr (.finish (next_of_exhausted he) rfl)

end Munch.Scanner
