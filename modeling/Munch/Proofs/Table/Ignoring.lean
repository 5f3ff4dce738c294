import Munch.Proofs.Table.Growth
import Munch.Proofs.Table.Matching

/-! Patterns to ignore that do no work.

The length to ignore is that of the first pattern that is not idle, so a pattern counts only
where all patterns before it are idle. One that is idle there too is `Redundant`, and the
length is the same without it (`firstLength_redundant`). That is so of a pattern that never
matches more than the empty text, wherever it stands, and of one that is equal to a pattern
before it. -/
namespace Munch
variable [Engine]

/-- Patterns that are equal are built in, and they are one. -/
theorem Pattern.eq_of_same {p q : Pattern} (h : q.same p = true) : q = p := by
  cases q with
  | regex r =>
    cases p with
    | regex s => exact congrArg Pattern.regex (beq_iff_eq.mp h)
    | literal _ | custom _ => cases h
  | literal l =>
    cases p with
    | literal m => exact congrArg Pattern.literal (beq_iff_eq.mp h)
    | regex _ | custom _ => cases h
  | custom _ => cases h

namespace Table
variable {text : Text} {pos : Int}

theorem idle_iff {p : Pattern} {answer : Option Int} (h : p.check text pos = .ok answer) :
    Idle text pos p ↔ answer.getD 0 = 0 := by
  constructor
  · intro ⟨answer', hanswer', hzero⟩
    cases h.symm.trans hanswer'
    exact hzero
  · intro hzero
    exact ⟨answer, h, hzero⟩

instance (text : Text) (pos : Int) (p : Pattern) : Decidable (Idle text pos p) :=
  match h : p.check text pos with
  | .ok _ => decidable_of_iff _ (idle_iff h).symm
  | .error _ => isFalse fun ⟨_, hanswer, _⟩ => nomatch h.symm.trans hanswer

/-- Where the pattern is not idle, one of the others is not. -/
def Redundant (text : Text) (pos : Int) (others : List Pattern) (q : Pattern) : Prop :=
  ¬ Idle text pos q → ∃ p ∈ others, ¬ Idle text pos p

instance (text : Text) (pos : Int) (others : List Pattern) (q : Pattern) :
    Decidable (Redundant text pos others q) :=
  inferInstanceAs (Decidable (_ → _))

theorem Redundant.of_idle {others : List Pattern} {q : Pattern} (h : Idle text pos q) :
    Redundant text pos others q := fun hq => absurd h hq

theorem Redundant.of_mem {others : List Pattern} {q : Pattern} (h : q ∈ others) :
    Redundant text pos others q := fun hq => ⟨q, h, hq⟩

/-- Where there is no other pattern, a redundant one is idle. -/
theorem redundant_nil {q : Pattern} : Redundant text pos [] q ↔ Idle text pos q := by
  simp [Redundant]

/-- A pattern that is idle is not what makes another one redundant. -/
theorem Redundant.tail {p q : Pattern} {others : List Pattern} (hp : Idle text pos p)
    (h : Redundant text pos (p :: others) q) : Redundant text pos others q := by
  intro hq
  obtain ⟨r, hr, hwork⟩ := h hq
  rcases List.mem_cons.mp hr with rfl | hrest
  · exact absurd hp hwork
  · exact ⟨r, hrest, hwork⟩

/-- **A redundant pattern decides nothing**: the length is the same without it. -/
theorem firstLength_redundant {before : List Pattern} {q : Pattern}
    (h : Redundant text pos before q) (after : List Pattern) :
    firstLength text pos (before ++ q :: after) = firstLength text pos (before ++ after) := by
  induction before with
  | nil =>
    obtain ⟨answer, hq, hzero⟩ := redundant_nil.mp h
    rw [List.nil_append, List.nil_append, firstLength_cons after hq, if_pos hzero]
  | cons p before ih =>
    rw [List.cons_append, List.cons_append]
    cases hp : p.check text pos with
    | error f =>
      rw [firstLength, firstLength, hp]
      rfl
    | ok found =>
      rw [firstLength_cons _ hp, firstLength_cons _ hp]
      by_cases hfound : found.getD 0 = 0
      · rw [if_pos hfound, if_pos hfound]
        exact ih (h.tail ((idle_iff hp).mpr hfound))
      · rw [if_neg hfound, if_neg hfound]

theorem after_ignore {t : Table} {spec : PatternSpec} {q : Pattern} (h : spec.compile = .ok q) :
    t.after (.ignore spec) = t.addIgnored q := by
  have hregisters : Registers t (.ignore spec) (t.addIgnored q) _ := .ignore h
  rw [Table.after, hregisters.ok]

end Table
end Munch
