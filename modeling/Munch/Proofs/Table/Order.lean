import Munch.Proofs.Table.Matching

/-! What the order of rules decides.

The order of rules decides which of the longest rules wins, and nothing else: how much
is matched, and whether anything is, depends on what rules there are
(`longest_sameLength`). A rule that wins among many wins among fewer as well
(`Wins.filter`), and the failure of a table is that of its first rule that fails
(`longest_eq_error_iff`). -/
namespace Munch.Table
variable [Engine]
variable {text : Text} {pos : Int}

/-! ### Rules that fail -/

/-- The failure of a rule at a place, if it fails there. -/
def failure? (text : Text) (pos : Int) (r : Rule) : Option Failure :=
  match r.pattern.check text pos with
  | .error f => some f
  | .ok _ => none

theorem longestFrom_eq_error_iff {best : Option (Rule × Nat)} {rules : List Rule} {f : Failure} :
    longestFrom text pos best rules = .error f ↔
      rules.findSome? (failure? text pos) = some f := by
  induction rules generalizing best with
  | nil => simp [longestFrom]
  | cons q rest ih =>
    rw [List.findSome?_cons]
    cases hq : q.pattern.check text pos with
    | error g =>
      have hfailure : failure? text pos q = some g := by simp only [failure?, hq]
      have hlongest : longestFrom text pos best (q :: rest) = .error g := by
        rw [longestFrom, hq]
        rfl
      rw [hfailure, hlongest]
      simp
    | ok answer =>
      have hfailure : failure? text pos q = none := by simp only [failure?, hq]
      rw [longestFrom_cons rest hq, hfailure]
      exact ih

theorem longest_eq_error_iff {t : Table} {f : Failure} :
    t.longest text pos = .error f ↔ t.rules.findSome? (failure? text pos) = some f :=
  longestFrom_eq_error_iff

/-! ### How much is matched -/

/-- The rule is one of those that match the most characters at a place. -/
def Longest (text : Text) (pos : Int) (rules : List Rule) (r : Rule) : Prop :=
  r ∈ rules ∧ ∃ n : Nat, 0 < n ∧ r.pattern.check text pos = .ok (some (n : Int)) ∧
    ∀ q ∈ rules, AtMost text pos n q

theorem Wins.longest {rules : List Rule} {r : Rule} {n : Nat} (h : Wins text pos rules r n) :
    Longest text pos rules r := by
  obtain ⟨i, hr, hcheck, hn, hmost, -⟩ := h
  exact ⟨List.mem_of_getElem? hr, n, hn, hcheck, hmost⟩

theorem Longest.of_mem_iff {rules rules' : List Rule} (hmem : ∀ q, q ∈ rules' ↔ q ∈ rules)
    {r : Rule} (h : Longest text pos rules' r) : Longest text pos rules r := by
  obtain ⟨hr, n, hn, hcheck, hmost⟩ := h
  exact ⟨(hmem r).mp hr, n, hn, hcheck, fun q hq => hmost q ((hmem q).mpr hq)⟩

theorem Wins.length_eq {rules rules' : List Rule} (hmem : ∀ q, q ∈ rules' ↔ q ∈ rules)
    {r r' : Rule} {n n' : Nat} (h : Wins text pos rules r n) (h' : Wins text pos rules' r' n') :
    n' = n := by
  obtain ⟨i, hr, hrn, -, hmost, -⟩ := h
  obtain ⟨j, hr', hrn', -, hmost', -⟩ := h'
  have hle : (n : Int) ≤ n' := (hmost' r ((hmem r).mpr (List.mem_of_getElem? hr))).le hrn
  have hge : (n' : Int) ≤ n := (hmost r' ((hmem r').mp (List.mem_of_getElem? hr'))).le hrn'
  omega

/-- Two answers to the question for the longest rule that agree in everything but the
rule. -/
inductive SameLength :
    Except Failure (Option (Rule × Nat)) → Except Failure (Option (Rule × Nat)) → Prop
  | error {f} : SameLength (.error f) (.error f)
  | none : SameLength (.ok none) (.ok none)
  | some {r r' n} : SameLength (.ok (some (r, n))) (.ok (some (r', n)))

/-- **Order does not decide how much is matched.** -/
theorem longest_sameLength {t t' : Table} (hmem : ∀ q, q ∈ t'.rules ↔ q ∈ t.rules)
    (hfails : ∀ f, t'.longest text pos = .error f ↔ t.longest text pos = .error f) :
    SameLength (t.longest text pos) (t'.longest text pos) := by
  cases h : t.longest text pos with
  | error f =>
    rw [(hfails f).mpr h]
    exact .error
  | ok winner =>
    cases h' : t'.longest text pos with
    | error f =>
      rw [(hfails f).mp h'] at h
      cases h
    | ok winner' =>
      cases winner with
      | none =>
        cases winner' with
        | none => exact .none
        | some won' =>
          have hnone : ∀ q ∈ t'.rules, AtMost text pos 0 q :=
            fun q hq => atMost_of_longest h q ((hmem q).mp hq)
          exact absurd hnone (wins_of_longest h').not_atMost_zero
      | some won =>
        cases winner' with
        | none =>
          have hnone : ∀ q ∈ t.rules, AtMost text pos 0 q :=
            fun q hq => atMost_of_longest h' q ((hmem q).mpr hq)
          exact absurd hnone (wins_of_longest h).not_atMost_zero
        | some won' =>
          obtain ⟨r, n⟩ := won
          obtain ⟨r', n'⟩ := won'
          obtain rfl := (wins_of_longest h).length_eq hmem (wins_of_longest h')
          exact .some

/-! ### Fewer rules -/

/-- The winner is the first rule, or it wins among the others and the first one matches
less. -/
theorem Wins.cons_cases {q r : Rule} {rest : List Rule} {n : Nat}
    (h : Wins text pos (q :: rest) r n) :
    q = r ∧ r.pattern.check text pos = .ok (some (n : Int)) ∧ 0 < n ∧
        (∀ p ∈ rest, AtMost text pos n p) ∨
      AtMost text pos (n - 1) q ∧ Wins text pos rest r n := by
  obtain ⟨i, hr, hcheck, hn, hmost, hbefore⟩ := h
  obtain ⟨-, hrest⟩ := List.forall_mem_cons.mp hmost
  cases i with
  | zero => exact .inl ⟨Option.some.inj hr, hcheck, hn, hrest⟩
  | succ i =>
    refine .inr ⟨hbefore 0 q (Nat.zero_lt_succ i) rfl, i, hr, hcheck, hn, hrest, ?_⟩
    intro j p hj hp
    exact hbefore (j + 1) p (Nat.succ_lt_succ hj) hp

/-- A winner still wins when others are left out. -/
theorem Wins.filter {rules : List Rule} {r : Rule} {n : Nat} (h : Wins text pos rules r n)
    {keep : Rule → Bool} (hkeep : keep r = true) : Wins text pos (rules.filter keep) r n := by
  induction rules with
  | nil =>
    obtain ⟨i, hr, -⟩ := h
    cases hr
  | cons q rest ih =>
    rcases h.cons_cases with ⟨rfl, hcheck, hn, hrest⟩ | ⟨hq, hwins⟩
    · rw [List.filter_cons_of_pos hkeep]
      exact wins_head hcheck hn fun p hp => hrest p (List.mem_filter.mp hp).1
    · by_cases hkeepq : keep q = true
      · rw [List.filter_cons_of_pos hkeepq]
        exact (ih hwins).cons hq
      · rw [List.filter_cons_of_neg hkeepq]
        exact ih hwins

end Munch.Table
