import Munch.Proofs.Scan.Calls

/-! What a scan asks its patterns.

A scan asks patterns about its whole text, at places before the end of it. Patterns can be
confined to such questions: to any other one they give an answer that is fixed, or fail
(`Pattern.confined`). A scan does not notice, whatever the fixed answer is
(`next_confined`). So it depends on no other answers, and if the fixed answer is a failure,
which no loop over patterns survives, this says that no other question is ever asked. -/
namespace Munch
variable [Engine]

section Confined
variable (input : Text) (otherwise : Except Failure (Option Int))

/-- The pattern that answers as `p` does about one text at places before its end, and gives
a fixed answer to anything else. -/
def Pattern.confined (p : Pattern) : Pattern :=
  .custom ⟨p.shown, fun text pos =>
    if text = input ∧ 0 ≤ pos ∧ pos < input.length then p.check text pos else otherwise⟩

def Rule.confined (r : Rule) : Rule := ⟨r.name, r.pattern.confined input otherwise⟩

/-- The table whose patterns are confined. -/
def Table.confined (t : Table) : Table :=
  { t with
    ignored := t.ignored.map (Pattern.confined input otherwise)
    rules := t.rules.map (Rule.confined input otherwise) }

end Confined

variable {input : Text} {otherwise : Except Failure (Option Int)} {pos : Nat}

theorem Pattern.check_confined (p : Pattern) (hpos : pos < input.length) :
    (p.confined input otherwise).check input pos = p.check input pos := by
  show (if input = input ∧ 0 ≤ (pos : Int) ∧ (pos : Int) < input.length then _ else _) = _
  rw [if_pos]
  exact ⟨rfl, Int.natCast_nonneg pos, by omega⟩

namespace Table

theorem firstLength_confined (patterns : List Pattern) (hpos : pos < input.length) :
    firstLength input pos (patterns.map (Pattern.confined input otherwise)) =
      firstLength input pos patterns := by
  induction patterns with
  | nil => rfl
  | cons p rest ih => simp only [List.map_cons, firstLength, Pattern.check_confined p hpos, ih]

/-- The winner is the same rule, confined. -/
theorem longestFrom_confined (rules : List Rule) (hpos : pos < input.length)
    (best : Option (Rule × Nat)) :
    longestFrom input pos (best.map fun won => (won.1.confined input otherwise, won.2))
        (rules.map (Rule.confined input otherwise)) =
      (longestFrom input pos best rules).map
        (Option.map fun won => (won.1.confined input otherwise, won.2)) := by
  induction rules generalizing best with
  | nil => rfl
  | cons r rest ih =>
    have hcheck : (r.confined input otherwise).pattern.check input pos =
        r.pattern.check input pos := Pattern.check_confined r.pattern hpos
    have hlead : lead (best.map fun won => (won.1.confined input otherwise, won.2)) =
        lead best := by cases best <;> rfl
    cases hr : r.pattern.check input pos with
    | error f => simp only [List.map_cons, longestFrom, hcheck, hr, bind, Except.bind, Except.map]
    | ok answer =>
      rw [List.map_cons, longestFrom_cons _ (hcheck.trans hr), longestFrom_cons rest hr, hlead,
        ← ih]
      by_cases hlonger : lead best < (answer.getD 0).toNat
      · simp only [if_pos hlonger, Option.map_some]
      · simp only [if_neg hlonger]

end Table

namespace Scan
variable {t : Table} {previewLength : Option Int}

theorem skipFrom_confined (left : Nat) {s : Scan} (hs : s.input = input) :
    skipFrom (t.confined input otherwise) left s = skipFrom t left s := by
  induction left generalizing s with
  | zero => rfl
  | succ left ih =>
    by_cases he : s.exhausted = true
    · simp only [skipFrom, if_pos he]
    · have hbefore : s.cursor < input.length := by
        rw [← hs]
        exact not_exhausted_iff.mp (by simpa using he)
      have hlength : (t.confined input otherwise).ignoredLength s.input s.cursor =
          t.ignoredLength s.input s.cursor := by
        rw [hs]
        exact Table.firstLength_confined t.ignored hbefore
      have hrest (n : Nat) : skipFrom (t.confined input otherwise) left (s.consume n) =
          skipFrom t left (s.consume n) := ih hs
      simp only [skipFrom, hlength, hrest]

theorem take_confined {s : Scan} (hs : s.input = input) (he : s.exhausted = false) :
    s.take (t.confined input otherwise) previewLength = s.take t previewLength := by
  have hbefore : s.cursor < input.length := hs ▸ not_exhausted_iff.mp he
  have hlongest : (t.confined input otherwise).longest input s.cursor =
      (t.longest input s.cursor).map
        (Option.map fun won => (won.1.confined input otherwise, won.2)) :=
    Table.longestFrom_confined t.rules hbefore none
  unfold take
  rw [hs, hlongest]
  rcases t.longest input s.cursor with f | _ | won <;> rfl

/-- **Confined patterns are as good**: a scan asks them about its whole text alone, at
places before the end of it. -/
theorem next_confined (t : Table) (previewLength : Option Int)
    (otherwise : Except Failure (Option Int)) (s : Scan) :
    s.next (t.confined s.input otherwise) previewLength = s.next t previewLength := by
  have hskip : s.skip (t.confined s.input otherwise) = s.skip t := skipFrom_confined s.left rfl
  have hinput : (s.skip t).scan.input = s.input := (skip_skips t s).takes.input_eq
  unfold next
  rw [hskip]
  by_cases he : (s.skip t).scan.exhausted = true
  · simp only [if_pos he]
  · have htake : (s.skip t).scan.take (t.confined s.input otherwise) previewLength =
        (s.skip t).scan.take t previewLength := take_confined hinput (by simpa using he)
    simp only [if_neg he, htake]

end Scan
end Munch
