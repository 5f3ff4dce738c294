import Munch.Proofs.Scan.Comparing
import Munch.Proofs.Scan.Lexing
import Munch.Proofs.Table.Order
import Munch.Regex

/-! The order of rules breaks ties and does nothing else.

Two tables that ignore the same, have the same keywords, and have the same rules in
some order take the same text at every place. So their scans go through the same
states and find tokens in the same places with the same texts (`reordered_scans`). What
a token is called may differ only where several rules match the most and no keyword
gives the name (`tokenOf_kind_eq`). -/
namespace Munch.Scan
open Table
section
variable [Engine]
variable {t t' : Table} {previewLength : Option Int}

section Lookup
variable (hlookup : ∀ value, t'.keywords.lookup value = t.keywords.lookup value)
include hlookup

/-- The text of a token does not depend on the rule that has matched it. -/
theorem relabel_text_eq (r r' : Rule) (value : Text) :
    (t'.relabel r' value).2 = (t.relabel r value).2 := by
  rw [relabel, relabel, hlookup]
  cases t.keywords.lookup value <;> rfl

theorem take_alike {s : Scan}
    (hsame : SameLength (t.longest s.input s.cursor) (t'.longest s.input s.cursor)) :
    Step.Alike (s.take t previewLength) (s.take t' previewLength) := by
  rw [take, take]
  generalize t.longest s.input s.cursor = winner at hsame ⊢
  generalize t'.longest s.input s.cursor = winner' at hsame ⊢
  cases hsame with
  | error => exact ⟨rfl, .error⟩
  | none => exact ⟨rfl, .error⟩
  | @some r r' n =>
    refine ⟨rfl, .token ?_⟩
    simp only [Token.spot, relabel_text_eq hlookup r r']

/-- A keyword gives its name to a token in either table, and a rule that has no equal
wins in either table. -/
theorem tokenOf_kind_eq (hmem : ∀ q, q ∈ t'.rules ↔ q ∈ t.rules) {s : Scan} {r r' : Rule}
    {n n' : Nat} (hr : Wins s.input s.cursor t.rules r n)
    (hr' : Wins s.input s.cursor t'.rules r' n')
    (h : (t.keywords.lookup (s.tokenOf t r n).value).isSome ∨
      ∃! q, Longest s.input s.cursor t.rules q) :
    (s.tokenOf t' r' n').kind = (s.tokenOf t r n).kind := by
  obtain rfl := hr.length_eq hmem hr'
  simp only [tokenOf, relabel, hlookup] at h ⊢
  cases hl : t.keywords.lookup (s.piece n') with
  | some token => rfl
  | none =>
    rw [hl] at h
    rcases h with hkeyword | ⟨q, -, hunique⟩
    · simp [hl] at hkeyword
    · have hrq : r = q := hunique r hr.longest
      have hrq' : r' = q := hunique r' (hr'.longest.of_mem_iff hmem)
      simp only [hrq, hrq']

end Lookup

theorem next_kind_eq (hignored : t'.ignored = t.ignored)
    (hlookup : ∀ value, t'.keywords.lookup value = t.keywords.lookup value)
    (hmem : ∀ q, q ∈ t'.rules ↔ q ∈ t.rules) {s : Scan} {token token' : Token}
    (htoken : (s.next t previewLength).result = .ok (some token))
    (htoken' : (s.next t' previewLength).result = .ok (some token'))
    (h : (t.keywords.lookup token.value).isSome ∨
      ∃! q, Longest s.input (s.skip t).scan.cursor t.rules q) :
    token'.kind = token.kind := by
  have hnexts' := next_nexts t' previewLength s
  rw [skip_congr hignored] at hnexts'
  rw [← (skip_skips t s).takes.input_eq] at h
  obtain ⟨r, n, hr, rfl⟩ := (next_nexts t previewLength s).exists_winner htoken
  obtain ⟨r', n', hr', rfl⟩ := hnexts'.exists_winner htoken'
  exact tokenOf_kind_eq hlookup hmem hr hr' h

/-- **Order only breaks ties**: with the rules in another order, a scan to the end finds
the same texts in the same places, ends in the same way, and is in the same state call
by call; and a token is called the same if its text is a keyword's, or if one rule
alone matches the most where it begins. -/
theorem reordered_scans (t t' : Table) (text : Text) (previewLength : Option Int) :
    let scan := start text
    let run := scan.run t previewLength
    let run' := scan.run t' previewLength
    t'.ignored = t.ignored → (∀ value, t'.keywords.lookup value = t.keywords.lookup value) →
      t'.rules.Perm t.rules → t.Answers text →
      run'.tokens.map Token.spot = run.tokens.map Token.spot ∧
      run'.stop = run.stop ∧ run'.scan = run.scan ∧
      (∀ n, (scan.calls t' previewLength n).scan = (scan.calls t previewLength n).scan) ∧
      ∀ i token token', run.tokens[i]? = some token → run'.tokens[i]? = some token' →
        (t.keywords.lookup token.value).isSome ∨
          (∃! r, Longest text (scan.offset t previewLength i) t.rules r) →
        token'.kind = token.kind := by
  intro scan run run' hignored hlookup hperm hanswers
  have hmem : ∀ q, q ∈ t'.rules ↔ q ∈ t.rules := fun q => hperm.mem_iff
  have hanswers' : t'.Answers text := ⟨hignored ▸ hanswers.ignored,
    fun r hr => hanswers.rules r ((hmem r).mp hr)⟩
  have hnext : ∀ s : Scan, s.input = text →
      Step.Alike (s.next t previewLength) (s.next t' previewLength) := by
    intro s hs
    refine next_alike hignored s fun he => ?_
    have hinput : (s.skip t).scan.input = text := (skip_skips t s).takes.input_eq.trans hs
    have hbefore := not_exhausted_iff.mp he
    refine take_alike hlookup (longest_sameLength hmem fun f => ?_)
    rw [hinput] at hbefore ⊢
    exact iff_of_false (hanswers'.longest_ne_error hbefore f) (hanswers.longest_ne_error hbefore f)
  have hscans := calls_scan_eq hnext (s := scan) rfl
  have halike : Run.Alike run run' := run_alike hnext rfl
  refine ⟨halike.tokens, halike.stop, halike.scan, hscans, ?_⟩
  intro i token token' hi hi' h
  have htoken := (run_runs t previewLength scan).tokens_eq i token hi
  have htoken' := (run_runs t' previewLength scan).tokens_eq i token' hi'
  rw [hscans i] at htoken'
  have hinput : (scan.calls t previewLength i).scan.input = text := calls_input ..
  refine next_kind_eq hignored hlookup hmem htoken htoken' ?_
  rwa [hinput]

end

attribute [local instance] Regex.plain

/-- Two rules match the same, and the literal of a keyword is matched by its rule. -/
def tied : Table := ({} : Table).afterAll
  [.rule (.string "pair") (.pattern (.literal "ab")),
    .rule (.string "late") (.pattern (.literal "ab")), .keyword (.string "DO") (.string "do")]

/-- The rules of `tied`, of which the first two have changed places. -/
def swapped : Table := ({} : Table).afterAll
  [.rule (.string "late") (.pattern (.literal "ab")),
    .rule (.string "pair") (.pattern (.literal "ab")), .keyword (.string "DO") (.string "do")]

theorem swapped_perm : swapped.rules.Perm tied.rules := by
  have htied : tied.rules =
      [⟨"pair", .literal "ab"⟩, ⟨"late", .literal "ab"⟩, ⟨"DO", .literal "do"⟩] := rfl
  have hswapped : swapped.rules =
      [⟨"late", .literal "ab"⟩, ⟨"pair", .literal "ab"⟩, ⟨"DO", .literal "do"⟩] := rfl
  rw [htied, hswapped]
  exact List.Perm.swap ..

theorem tied_answers (text : Text) : tied.Answers text := by
  have hrules : tied.rules =
      [⟨"pair", .literal "ab"⟩, ⟨"late", .literal "ab"⟩, ⟨"DO", .literal "do"⟩] := rfl
  have hignored : tied.ignored = [] := rfl
  refine answers_of_literals ?_ ?_ text
  · simp [hignored]
  · simp [hrules]

/-- The first token is called by either name, and the second is the keyword's. -/
theorem reordered_scans_swapped :
    swapped.rules.Perm tied.rules ∧ tied.Answers "abdo" ∧
      ((start "abdo").run tied none).tokens =
        [⟨"pair", "ab", 1, 0⟩, ⟨"DO", "do", 1, 2⟩] ∧
      ((start "abdo").run swapped none).tokens.map (·.kind) = [("late" : Text), "DO"] ∧
      ((start "abdo").run swapped none).tokens.map Token.spot =
        [(("ab" : Text), 1, 0), (("do" : Text), 1, 2)] := by
  have htokens : ((start "abdo").run tied none).tokens =
      [⟨"pair", "ab", 1, 0⟩, ⟨"DO", "do", 1, 2⟩] := by decide +kernel
  have hkinds : ((start "abdo").run swapped none).tokens.map (·.kind) =
      [("late" : Text), "DO"] := by decide +kernel
  have hspots := (reordered_scans tied swapped "abdo" none rfl (fun _ => rfl)
    swapped_perm (tied_answers _)).1
  refine ⟨swapped_perm, tied_answers _, htokens, hkinds, ?_⟩
  rw [hspots, htokens]
  rfl

end Munch.Scan
