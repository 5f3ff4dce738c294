import Munch.Table

/-! What the two questions to a table come to.

`Table.ignoredLength` and `Table.longest` go through a list of patterns one by
one. Here their answers are said of the list as a whole: the first pattern that
matches some characters (`First`), and the first of the rules that match the most
(`Wins`). Each of the two is unique, and excludes that there is none. -/
namespace Munch
variable [Engine]

namespace Table
variable {text : Text} {pos : Int}

/-! ### The first pattern -/

/-- The pattern answers that it matches no characters at a place: it does not match there,
or what it matches is empty. -/
def Idle (text : Text) (pos : Int) (p : Pattern) : Prop :=
  ∃ answer : Option Int, p.check text pos = .ok answer ∧ answer.getD 0 = 0

theorem Idle.eq_zero {p : Pattern} {n : Int} (h : Idle text pos p)
    (hn : p.check text pos = .ok (some n)) : n = 0 := by
  obtain ⟨answer, hanswer, hzero⟩ := h
  cases hanswer.symm.trans hn
  exact hzero

/-- The first pattern that is not idle matches `n` characters. -/
def First (text : Text) (pos : Int) (patterns : List Pattern) (n : Int) : Prop :=
  ∃ (i : Nat) (p : Pattern), patterns[i]? = some p ∧ p.check text pos = .ok (some n) ∧ n ≠ 0 ∧
    ∀ (j : Nat) (q : Pattern), j < i → patterns[j]? = some q → Idle text pos q

theorem First.cons {p : Pattern} {rest : List Pattern} {n : Int} (hp : Idle text pos p)
    (h : First text pos rest n) : First text pos (p :: rest) n := by
  obtain ⟨i, q, hq, hcheck, hn, hbefore⟩ := h
  refine ⟨i + 1, q, hq, hcheck, hn, ?_⟩
  intro j r hj hr
  cases j with
  | zero => exact Option.some.inj hr ▸ hp
  | succ j => exact hbefore j r (Nat.lt_of_succ_lt_succ hj) hr

theorem First.unique {patterns : List Pattern} {n m : Int} (hn : First text pos patterns n)
    (hm : First text pos patterns m) : n = m := by
  obtain ⟨i, p, hp, hpn, hn0, hi⟩ := hn
  obtain ⟨j, q, hq, hqm, hm0, hj⟩ := hm
  rcases Nat.lt_trichotomy i j with hlt | rfl | hlt
  · exact absurd ((hj i p hlt hp).eq_zero hpn) hn0
  · cases hp.symm.trans hq
    cases hpn.symm.trans hqm
    rfl
  · exact absurd ((hi j q hlt hq).eq_zero hqm) hm0

theorem First.not_idle {patterns : List Pattern} {n : Int} (h : First text pos patterns n) :
    ¬ ∀ p ∈ patterns, Idle text pos p := by
  obtain ⟨i, p, hp, hcheck, hn, -⟩ := h
  exact fun hidle => hn ((hidle p (List.mem_of_getElem? hp)).eq_zero hcheck)

theorem firstLength_cons {p : Pattern} (rest : List Pattern) {answer : Option Int}
    (hp : p.check text pos = .ok answer) :
    firstLength text pos (p :: rest) =
      if answer.getD 0 = 0 then firstLength text pos rest else .ok (answer.getD 0) := by
  rw [firstLength, hp]
  rfl

/-- The length is that of the first pattern that is not idle, and 0 if all are. -/
theorem firstLength_ok {patterns : List Pattern} {n : Int}
    (h : firstLength text pos patterns = .ok n) :
    (n = 0 ∧ ∀ p ∈ patterns, Idle text pos p) ∨ First text pos patterns n := by
  induction patterns with
  | nil => exact .inl ⟨(Except.ok.inj h).symm, by simp⟩
  | cons p rest ih =>
    cases hp : p.check text pos with
    | error f =>
      rw [firstLength, hp] at h
      cases h
    | ok answer =>
      rw [firstLength_cons rest hp] at h
      by_cases h0 : answer.getD 0 = 0
      · have hidle : Idle text pos p := ⟨answer, hp, h0⟩
        rw [if_pos h0] at h
        rcases ih h with ⟨rfl, hall⟩ | hfirst
        · exact .inl ⟨rfl, List.forall_mem_cons.mpr ⟨hidle, hall⟩⟩
        · exact .inr (hfirst.cons hidle)
      · rw [if_neg h0] at h
        cases h
        cases answer with
        | none => exact absurd rfl h0
        | some m => exact .inr ⟨0, p, rfl, hp, h0, fun j _ hj => absurd hj (Nat.not_lt_zero j)⟩

theorem First.length_eq {patterns : List Pattern} {n : Int} (h : First text pos patterns n) :
    firstLength text pos patterns = .ok n := by
  induction patterns with
  | nil =>
    obtain ⟨i, p, hp, -⟩ := h
    cases hp
  | cons q rest ih =>
    obtain ⟨i, p, hp, hcheck, hn, hbefore⟩ := h
    cases i with
    | zero =>
      cases hp
      rw [firstLength_cons rest hcheck]
      exact if_neg hn
    | succ i =>
      obtain ⟨answer, hq, hzero⟩ := hbefore 0 q (Nat.zero_lt_succ i) rfl
      rw [firstLength_cons rest hq, if_pos hzero]
      exact ih ⟨i, p, hp, hcheck, hn, fun j r hj => hbefore (j + 1) r (Nat.succ_lt_succ hj)⟩

theorem firstLength_of_idle {patterns : List Pattern} (h : ∀ p ∈ patterns, Idle text pos p) :
    firstLength text pos patterns = .ok 0 := by
  induction patterns with
  | nil => rfl
  | cons p rest ih =>
    obtain ⟨⟨answer, hp, hzero⟩, hrest⟩ := List.forall_mem_cons.mp h
    rw [firstLength_cons rest hp, if_pos hzero, ih hrest]

/-- A pattern that fails is asked if those before it are idle. -/
theorem firstLength_of_error {patterns before after : List Pattern} {p : Pattern} {f : Failure}
    (hlist : patterns = before ++ p :: after) (hbefore : ∀ q ∈ before, Idle text pos q)
    (hp : p.check text pos = .error f) : firstLength text pos patterns = .error f := by
  subst hlist
  induction before with
  | nil =>
    rw [List.nil_append, firstLength, hp]
    rfl
  | cons q before ih =>
    obtain ⟨⟨answer, hq, hzero⟩, hrest⟩ := List.forall_mem_cons.mp hbefore
    rw [List.cons_append, firstLength_cons _ hq, if_pos hzero, ih hrest]

/-- A failure is that of a pattern, and those before it are idle. -/
theorem error_of_firstLength {patterns : List Pattern} {f : Failure}
    (h : firstLength text pos patterns = .error f) :
    ∃ before p after, patterns = before ++ p :: after ∧ (∀ q ∈ before, Idle text pos q) ∧
      p.check text pos = .error f := by
  induction patterns with
  | nil => cases h
  | cons p rest ih =>
    cases hp : p.check text pos with
    | error g =>
      rw [firstLength, hp] at h
      cases h
      exact ⟨[], p, rest, rfl, by simp, hp⟩
    | ok answer =>
      rw [firstLength_cons rest hp] at h
      by_cases hzero : answer.getD 0 = 0
      · rw [if_pos hzero] at h
        obtain ⟨before, q, after, rfl, hbefore, hq⟩ := ih h
        have hidle : ∀ q ∈ p :: before, Idle text pos q :=
          List.forall_mem_cons.mpr ⟨⟨answer, hp, hzero⟩, hbefore⟩
        exact ⟨p :: before, q, after, rfl, hidle, hq⟩
      · rw [if_neg hzero] at h
        cases h

/-- Patterns that come later are asked where those before them match no characters. -/
theorem firstLength_append (patterns more : List Pattern) :
    firstLength text pos (patterns ++ more) =
      (firstLength text pos patterns).bind fun n =>
        if n = 0 then firstLength text pos more else .ok n := by
  induction patterns with
  | nil => rfl
  | cons p rest ih =>
    cases hp : p.check text pos with
    | error f =>
      rw [List.cons_append, firstLength, firstLength, hp]
      rfl
    | ok answer =>
      rw [List.cons_append, firstLength_cons _ hp, firstLength_cons _ hp, ih]
      by_cases h0 : answer.getD 0 = 0
      · rw [if_pos h0, if_pos h0]
      · rw [if_neg h0, if_neg h0, Except.bind, if_neg h0]

theorem of_firstLength_append {patterns more : List Pattern} {n : Int}
    (h : firstLength text pos (patterns ++ more) = .ok n) :
    firstLength text pos patterns = .ok n ∧ n ≠ 0 ∨
      firstLength text pos patterns = .ok 0 ∧ firstLength text pos more = .ok n := by
  rw [firstLength_append] at h
  cases hfirst : firstLength text pos patterns with
  | error f =>
    rw [hfirst] at h
    cases h
  | ok m =>
    rw [hfirst, Except.bind] at h
    by_cases hm : m = 0
    · rw [if_pos hm] at h
      exact .inr ⟨congrArg _ hm, h⟩
    · rw [if_neg hm] at h
      cases h
      exact .inl ⟨rfl, hm⟩

/-- Where all patterns answer, there is a length. -/
theorem firstLength_total {patterns : List Pattern}
    (h : ∀ p ∈ patterns, ∃ answer, p.check text pos = .ok answer) :
    ∃ n, firstLength text pos patterns = .ok n := by
  induction patterns with
  | nil => exact ⟨0, rfl⟩
  | cons p rest ih =>
    obtain ⟨⟨answer, hp⟩, hrest⟩ := List.forall_mem_cons.mp h
    rw [firstLength_cons rest hp]
    split
    · exact ih hrest
    · exact ⟨_, rfl⟩

/-- Where all patterns answer alike, the length is the same. -/
theorem firstLength_congr {text' : Text} {pos' : Int} {patterns : List Pattern}
    (h : ∀ p ∈ patterns, p.check text pos = p.check text' pos') :
    firstLength text pos patterns = firstLength text' pos' patterns := by
  induction patterns with
  | nil => rfl
  | cons p rest ih =>
    obtain ⟨hp, hrest⟩ := List.forall_mem_cons.mp h
    rw [firstLength, firstLength, hp, ih hrest]

/-! ### The longest rule -/

/-- The rule answers that it matches at most `n` characters at a place, if it matches there. -/
def AtMost (text : Text) (pos n : Int) (r : Rule) : Prop :=
  ∃ answer, r.pattern.check text pos = .ok answer ∧ ∀ m, answer = some m → m ≤ n

theorem AtMost.le {n m : Int} {r : Rule} (h : AtMost text pos n r)
    (hm : r.pattern.check text pos = .ok (some m)) : m ≤ n := by
  obtain ⟨answer, hanswer, hmost⟩ := h
  exact hmost m (Except.ok.inj (hanswer.symm.trans hm))

theorem AtMost.mono {n m : Int} {r : Rule} (h : AtMost text pos n r) (hnm : n ≤ m) :
    AtMost text pos m r := by
  obtain ⟨answer, hanswer, hmost⟩ := h
  exact ⟨answer, hanswer, fun k hk => Int.le_trans (hmost k hk) hnm⟩

theorem atMost_of_check {r : Rule} {answer : Option Int}
    (h : r.pattern.check text pos = .ok answer) : AtMost text pos (answer.getD 0).toNat r := by
  refine ⟨answer, h, fun m hm => ?_⟩
  subst hm
  exact Int.self_le_toNat m

/-- A length that counts is the one that the pattern gave. -/
theorem check_of_lead {r : Rule} {answer : Option Int}
    (h : r.pattern.check text pos = .ok answer) (hpos : 0 < (answer.getD 0).toNat) :
    r.pattern.check text pos = .ok (some ((answer.getD 0).toNat : Int)) := by
  cases answer with
  | none => exact absurd hpos (Nat.not_lt_zero _)
  | some m =>
    have hm : ((m.toNat : Nat) : Int) = m := Int.toNat_of_nonneg (by
      simp only [Option.getD_some] at hpos
      omega)
    rw [h, Option.getD_some, hm]

/-- The rule matches `n` characters: no rule matches more, and those before it
match fewer. -/
def Wins (text : Text) (pos : Int) (rules : List Rule) (r : Rule) (n : Nat) : Prop :=
  ∃ i : Nat, rules[i]? = some r ∧ r.pattern.check text pos = .ok (some (n : Int)) ∧ 0 < n ∧
    (∀ q ∈ rules, AtMost text pos n q) ∧
    ∀ (j : Nat) (q : Rule), j < i → rules[j]? = some q → AtMost text pos (n - 1) q

/-- A rule that matches some characters, and no fewer than those after it, wins. -/
theorem wins_head {r : Rule} {rest : List Rule} {n : Nat}
    (hcheck : r.pattern.check text pos = .ok (some (n : Int))) (hn : 0 < n)
    (hrest : ∀ p ∈ rest, AtMost text pos n p) : Wins text pos (r :: rest) r n := by
  have hr : AtMost text pos n r := atMost_of_check hcheck
  exact ⟨0, rfl, hcheck, hn, List.forall_mem_cons.mpr ⟨hr, hrest⟩,
    fun j _ hj => absurd hj (Nat.not_lt_zero j)⟩

theorem Wins.cons {r q : Rule} {rest : List Rule} {n : Nat} (hq : AtMost text pos (n - 1) q)
    (h : Wins text pos rest r n) : Wins text pos (q :: rest) r n := by
  obtain ⟨i, hr, hcheck, hn, hmost, hbefore⟩ := h
  have hq' : AtMost text pos n q := hq.mono (by omega)
  refine ⟨i + 1, hr, hcheck, hn, List.forall_mem_cons.mpr ⟨hq', hmost⟩, ?_⟩
  intro j p hj hp
  cases j with
  | zero => exact Option.some.inj hp ▸ hq
  | succ j => exact hbefore j p (Nat.lt_of_succ_lt_succ hj) hp

theorem Wins.unique {rules : List Rule} {r q : Rule} {n m : Nat} (hr : Wins text pos rules r n)
    (hq : Wins text pos rules q m) : r = q ∧ n = m := by
  obtain ⟨i, hri, hrn, -, hrmost, hi⟩ := hr
  obtain ⟨j, hqj, hqm, -, hqmost, hj⟩ := hq
  have hnm : n = m := by
    have h1 := (hqmost r (List.mem_of_getElem? hri)).le hrn
    have h2 := (hrmost q (List.mem_of_getElem? hqj)).le hqm
    omega
  subst hnm
  refine ⟨?_, rfl⟩
  rcases Nat.lt_trichotomy i j with hlt | rfl | hlt
  · have := (hj i r hlt hri).le hrn
    omega
  · exact Option.some.inj (hri.symm.trans hqj)
  · have := (hi j q hlt hqj).le hqm
    omega

theorem Wins.not_atMost_zero {rules : List Rule} {r : Rule} {n : Nat}
    (h : Wins text pos rules r n) : ¬ ∀ q ∈ rules, AtMost text pos 0 q := by
  obtain ⟨i, hr, hcheck, hn, -⟩ := h
  intro hnone
  have := (hnone r (List.mem_of_getElem? hr)).le hcheck
  omega

/-- The length that a rule has to exceed. -/
def lead (best : Option (Rule × Nat)) : Nat := (best.map (·.2)).getD 0

theorem longestFrom_cons {best : Option (Rule × Nat)} {q : Rule} (rest : List Rule)
    {answer : Option Int} (hq : q.pattern.check text pos = .ok answer) :
    longestFrom text pos best (q :: rest) =
      longestFrom text pos
        (if lead best < (answer.getD 0).toNat then some (q, (answer.getD 0).toNat) else best)
        rest := by
  rw [longestFrom, hq]
  rfl

/-- Where all rules answer, there is a result. -/
theorem longestFrom_total {rules : List Rule}
    (h : ∀ r ∈ rules, ∃ answer, r.pattern.check text pos = .ok answer)
    (best : Option (Rule × Nat)) : ∃ result, longestFrom text pos best rules = .ok result := by
  induction rules generalizing best with
  | nil => exact ⟨best, rfl⟩
  | cons q rest ih =>
    obtain ⟨⟨answer, hq⟩, hrest⟩ := List.forall_mem_cons.mp h
    rw [longestFrom_cons rest hq]
    exact ih hrest _

/-- Where all rules answer alike, the result is the same. -/
theorem longestFrom_congr {text' : Text} {pos' : Int} {rules : List Rule}
    (h : ∀ r ∈ rules, r.pattern.check text pos = r.pattern.check text' pos')
    (best : Option (Rule × Nat)) :
    longestFrom text pos best rules = longestFrom text' pos' best rules := by
  induction rules generalizing best with
  | nil => rfl
  | cons r rest ih =>
    obtain ⟨hr, hrest⟩ := List.forall_mem_cons.mp h
    simp only [longestFrom, hr, ih hrest]

/-- Either no rule exceeds the best one so far, or the longest of them takes the lead. -/
theorem longestFrom_ok {best result : Option (Rule × Nat)} {rules : List Rule}
    (h : longestFrom text pos best rules = .ok result) :
    (result = best ∧ ∀ q ∈ rules, AtMost text pos (lead best) q) ∨
      ∃ r n, result = some (r, n) ∧ lead best < n ∧ Wins text pos rules r n := by
  induction rules generalizing best with
  | nil => exact .inl ⟨(Except.ok.inj h).symm, by simp⟩
  | cons q rest ih =>
    cases hq : q.pattern.check text pos with
    | error f =>
      rw [longestFrom, hq] at h
      cases h
    | ok answer =>
      rw [longestFrom_cons rest hq] at h
      have hlength := atMost_of_check hq
      by_cases hlead : lead best < (answer.getD 0).toNat
      · rw [if_pos hlead] at h
        have hcheck := check_of_lead hq (Nat.lt_of_le_of_lt (Nat.zero_le _) hlead)
        rcases ih h with ⟨rfl, hmost⟩ | ⟨r, n, rfl, hn, hwins⟩
        · -- The rest does not exceed `q`, which took the lead.
          exact .inr ⟨q, _, rfl, hlead, wins_head hcheck (by omega) hmost⟩
        · have hless : (answer.getD 0).toNat < n := hn
          exact .inr ⟨r, n, rfl, by omega, hwins.cons (hlength.mono (by omega))⟩
      · rw [if_neg hlead] at h
        have hq' : AtMost text pos (lead best) q := hlength.mono (by omega)
        rcases ih h with ⟨rfl, hmost⟩ | ⟨r, n, rfl, hn, hwins⟩
        · exact .inl ⟨rfl, List.forall_mem_cons.mpr ⟨hq', hmost⟩⟩
        · exact .inr ⟨r, n, rfl, hn, hwins.cons (hq'.mono (by omega))⟩

/-- A rule that fails is asked if those before it answer. -/
theorem longestFrom_of_error {rules before after : List Rule} {r : Rule} {f : Failure}
    (hlist : rules = before ++ r :: after)
    (hbefore : ∀ q ∈ before, ∃ answer, q.pattern.check text pos = .ok answer)
    (hr : r.pattern.check text pos = .error f) (best : Option (Rule × Nat)) :
    longestFrom text pos best rules = .error f := by
  subst hlist
  induction before generalizing best with
  | nil =>
    rw [List.nil_append, longestFrom, hr]
    rfl
  | cons q before ih =>
    obtain ⟨⟨answer, hq⟩, hrest⟩ := List.forall_mem_cons.mp hbefore
    rw [List.cons_append, longestFrom_cons _ hq]
    exact ih hrest _

/-- A failure is that of a rule, and those before it answer. -/
theorem error_of_longestFrom {best : Option (Rule × Nat)} {rules : List Rule} {f : Failure}
    (h : longestFrom text pos best rules = .error f) :
    ∃ before r after, rules = before ++ r :: after ∧
      (∀ q ∈ before, ∃ answer, q.pattern.check text pos = .ok answer) ∧
      r.pattern.check text pos = .error f := by
  induction rules generalizing best with
  | nil => cases h
  | cons q rest ih =>
    cases hq : q.pattern.check text pos with
    | error g =>
      rw [longestFrom, hq] at h
      cases h
      exact ⟨[], q, rest, rfl, by simp, hq⟩
    | ok answer =>
      rw [longestFrom_cons rest hq] at h
      obtain ⟨before, r, after, rfl, hbefore, hr⟩ := ih h
      exact ⟨q :: before, r, after, rfl, List.forall_mem_cons.mpr ⟨⟨answer, hq⟩, hbefore⟩, hr⟩

/-! ### The table -/

section Table
variable {t : Table}

/-- A length other than 0 is that of the first pattern to ignore that is not idle. -/
theorem first_of_ignoredLength {n : Int} (h : t.ignoredLength text pos = .ok n) (hn : n ≠ 0) :
    First text pos t.ignored n := by
  rcases firstLength_ok h with ⟨hzero, -⟩ | hfirst
  · exact absurd hzero hn
  · exact hfirst

theorem idle_of_ignoredLength (h : t.ignoredLength text pos = .ok 0) :
    ∀ p ∈ t.ignored, Idle text pos p := by
  rcases firstLength_ok h with ⟨-, hidle⟩ | ⟨_, _, _, _, hzero, _⟩
  · exact hidle
  · exact absurd rfl hzero

/-- The rule that is chosen is the first of the longest. -/
theorem wins_of_longest {r : Rule} {n : Nat} (h : t.longest text pos = .ok (some (r, n))) :
    Wins text pos t.rules r n := by
  rcases longestFrom_ok h with ⟨hnone, -⟩ | ⟨r', n', hsome, -, hwins⟩
  · cases hnone
  · cases hsome
    exact hwins

/-- No rule is chosen only if none matches a character. -/
theorem atMost_of_longest (h : t.longest text pos = .ok none) :
    ∀ q ∈ t.rules, AtMost text pos 0 q := by
  rcases longestFrom_ok h with ⟨-, hmost⟩ | ⟨_, _, hsome, -⟩
  · exact hmost
  · cases hsome

end Table

end Table
end Munch
