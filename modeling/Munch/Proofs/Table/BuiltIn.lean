import Munch.Proofs.Table.Keywords

/-! Tables of regular expressions and literals.

Patterns given by functions come into a table only as such. A table in which every
registration gave something else has built-in patterns alone (`Registers.builtIn`). What
these match at a place ends between the place and the end of the text
(`Pattern.BuiltIn.bounded`). -/
namespace Munch
variable [Engine]

namespace Pattern

/-- The pattern is a regular expression or a literal. -/
def BuiltIn (p : Pattern) : Prop := ∀ c, p ≠ .custom c

/-- What the pattern matches at a place in a text ends between that place and the end. -/
def Bounded (p : Pattern) : Prop :=
  ∀ (text : Text) (pos : Nat) (n : Int), pos ≤ text.length →
    p.check text pos = .ok (some n) → 0 ≤ n ∧ pos + n ≤ text.length

theorem bounded_regex (r : Engine.Expression) : (regex r).Bounded := by
  intro text pos n hpos hcheck
  exact Engine.check_bounds hpos hcheck

theorem bounded_literal (l : Text) : (literal l).Bounded := by
  intro text pos n hpos hcheck
  obtain ⟨hbegins, rfl⟩ := prefix_of_checkLiteral (Except.ok.inj hcheck)
  have hlength := hbegins.length_le
  rw [List.length_drop] at hlength
  omega

theorem BuiltIn.bounded {p : Pattern} (h : p.BuiltIn) : p.Bounded := by
  cases p with
  | regex r => exact bounded_regex r
  | literal l => exact bounded_literal l
  | custom c => exact absurd rfl (h c)

end Pattern

/-- What is given is no pattern that a function makes. -/
def PatternSpec.BuiltIn (spec : PatternSpec) : Prop := ∀ c, spec ≠ .pattern (.custom c)

theorem PatternSpec.BuiltIn.compile {spec : PatternSpec} (h : spec.BuiltIn) {p : Pattern}
    (hp : spec.compile = .ok p) : p.BuiltIn := by
  cases spec with
  | source source =>
    rw [PatternSpec.compile] at hp
    cases hr : Engine.compile source with
    | error fault =>
      rw [hr] at hp
      cases hp
    | ok r =>
      rw [hr] at hp
      cases hp
      nofun
  | compiled r =>
    cases hp
    nofun
  | pattern q =>
    cases hp
    rintro c rfl
    exact h c rfl
  | bytes _ | value _ => cases hp

/-- No pattern that a function makes is to be registered. -/
def Registration.BuiltIn : Registration → Prop
  | ignore spec | rule _ spec => spec.BuiltIn
  | keyword _ _ => True

namespace Table

/-- All patterns of a table are built in. -/
structure BuiltIn (t : Table) : Prop where
  ignored : ∀ p ∈ t.ignored, p.BuiltIn
  rules : ∀ r ∈ t.rules, r.pattern.BuiltIn

theorem builtIn_empty : BuiltIn {} where
  ignored := by simp
  rules := by simp

theorem Registers.builtIn {t t' : Table} {r : Registration} {record : Record}
    (h : Registers t r t' record) (hr : r.BuiltIn) (ht : t.BuiltIn) : t'.BuiltIn := by
  cases h with
  | ignore hp =>
    refine ⟨List.forall_mem_append.mpr ⟨ht.ignored, ?_⟩, ht.rules⟩
    exact List.forall_mem_singleton.mpr (PatternSpec.BuiltIn.compile hr hp)
  | rule _ hp =>
    refine ⟨ht.ignored, List.forall_mem_append.mpr ⟨ht.rules, ?_⟩⟩
    exact List.forall_mem_singleton.mpr (PatternSpec.BuiltIn.compile hr hp)
  | keyword _ _ _ _ =>
    refine ⟨ht.ignored, List.forall_mem_append.mpr ⟨ht.rules, ?_⟩⟩
    exact List.forall_mem_singleton.mpr nofun

end Table
end Munch
