import Munch.Proofs.Scan.Lexing
import Munch.Proofs.Scan.Renaming
import Munch.Proofs.Table.Accepting
import Munch.Proofs.Table.Extending
import Munch.Regex

/-! A table with one more entry.

A registration changes what scans find only where its pattern is looked for and matches more
than the rules that were there. As long as it does not, calls come to what they came to
before (`agrees_of_not_exceeds`): all the same if it is a rule, and if it is a keyword, its
literal gets its name, whichever rule has matched it. `register_conservative` says so of
calls, and of scans to the end. -/
namespace Munch

/-- The token that it is after a keyword is registered: the literal is called by its name. -/
def Token.renamed (literal name : Text) (token : Token) : Token :=
  if token.value = literal then { token with kind := name } else token

theorem Token.renamed_kind_ne_iff {literal name : Text} {token : Token} (h : token.kind ≠ name) :
    (token.renamed literal name).kind ≠ token.kind ↔ token.value = literal := by
  by_cases hvalue : token.value = literal
  · simp [renamed, hvalue, h.symm]
  · simp [renamed, hvalue]

namespace Scan
open Table

section
variable [Engine] {t t' : Table} {previewLength : Option Int} {f : Token → Token} {name : Text}
  {p : Pattern}

/-- The call after the first `i` ones looks for a rule, at an offset. -/
structure Looks (t : Table) (previewLength : Option Int) (s : Scan) (i offset : Nat) : Prop where
  skips : ((s.calls t previewLength i).scan.skip t).failure = none
  before : ((s.calls t previewLength i).scan.skip t).scan.exhausted = false
  offset_eq : s.offset t previewLength i = offset

/-- Calls agree as long as the new rule does not match more than the others where it is
looked for. -/
theorem agrees_of_not_exceeds (hignored : t'.ignored = t.ignored)
    (hrules : t'.rules = t.rules ++ [⟨name, p⟩])
    (htoken : ∀ s r n, tokenOf t' s r n = f (tokenOf t s r n)) {s : Scan}
    (hanswers : ∀ pos : Nat, pos < s.input.length → ∃ answer, p.check s.input pos = .ok answer)
    {n : Nat}
    (h : ∀ i < n, ∀ pos, Looks t previewLength s i pos → ¬ Exceeds s.input pos t.rules p) :
    Agrees t t' previewLength f s n := by
  intro i hi before
  refine next_mapToken hignored fun hskips he => ?_
  have hinput : (before.skip t).scan.input = s.input :=
    (skip_skips t before).takes.input_eq.trans (calls_input t previewLength s i)
  have hbefore := not_exhausted_iff.mp he
  rw [hinput] at hbefore
  obtain ⟨answer, hanswer⟩ := hanswers _ hbefore
  refine take_mapToken ?_ fun r n _ => htoken _ r n
  rw [hinput]
  exact longest_of_not_exceeds hrules hanswer (h i hi _ ⟨hskips, he, rfl⟩)

theorem tokenOf_addKeyword (ht : t.WellFormed) {literal : Text}
    (hliteral : t.keywords.lookup literal = none) (name : Text) (s : Scan) (r : Rule) (n : Nat) :
    tokenOf (t.addKeyword name literal) s r n = (tokenOf t s r n).renamed literal name := by
  have hvalue := ht.relabel_value r (s.piece n)
  simp only [tokenOf, relabel_addKeyword hliteral, Token.renamed, hvalue]
  by_cases h : (s.piece n) = literal
  · simp [h]
  · simp [h, hvalue]

/-- The kinds of tokens are names in use. -/
theorem run_kind_ne (ht : t.WellFormed) (hname : t.names.lookup name = none) (s : Scan) :
    ∀ token ∈ (s.run t previewLength).tokens, token.kind ≠ name := by
  intro token htoken
  obtain ⟨i, hi⟩ := (run_runs t previewLength s).call_of_mem htoken
  obtain ⟨r, n, ⟨_, hr, -⟩, rfl⟩ := (next_nexts t previewLength _).exists_winner hi
  obtain ⟨q, hq, hkind⟩ := (relabel_labels t r _).exists_rule ht (List.mem_of_getElem? hr)
  intro heq
  exact ht.name_ne_of_lookup hname q hq (hkind.trans heq)

/-- A new rule changes nothing as long as it does not match more than the others. -/
theorem agrees_addRule (t : Table) (name : Text) {s : Scan} {n : Nat}
    (hanswers : ∀ pos : Nat, pos < s.input.length → ∃ answer, p.check s.input pos = .ok answer)
    (h : ∀ i < n, ∀ pos, Looks t previewLength s i pos → ¬ Exceeds s.input pos t.rules p) :
    Agrees t (t.addRule name .rule p) previewLength id s n :=
  agrees_of_not_exceeds (ignored_addRule t) rfl (fun _ _ _ => rfl) hanswers h

/-- A new keyword gives its name to its literal, if some rule matches as much as that. -/
theorem agrees_addKeyword (ht : t.WellFormed) {literal : Text}
    (hliteral : t.keywords.lookup literal = none) (name : Text) {s : Scan} {n : Nat}
    (h : ∀ i < n, ∀ pos, Looks t previewLength s i pos → literal <+: s.input.drop pos →
      Reaches s.input pos t.rules literal.length) :
    Agrees t (t.addKeyword name literal) previewLength (Token.renamed literal name) s n :=
  agrees_of_not_exceeds (ignored_addKeyword t) rfl (tokenOf_addKeyword ht hliteral name)
    (fun _ _ => ⟨_, rfl⟩) fun i hi pos hlooks => not_exceeds_literal (h i hi pos hlooks)

/-- **One more entry** leaves what there was. A rule, whose pattern gives answers, changes
nothing before the first offset where a rule is looked for and its pattern matches more
than every other one: up to there calls find the same, fail the same, and leave the same
states; if there is no such offset a scan to the end is the same. A keyword changes only
names, if wherever a rule is looked for and its literal stands, some rule matches as much as
that: the tokens whose text is the literal get its name, and did not have it. -/
theorem register_conservative (registrations : List Registration) (previewLength : Option Int)
    (text : Text) (r : Registration) (t' : Table) (record : Record) :
    let t := ({} : Table).afterAll registrations
    let scan := start text
    let run := scan.run t previewLength
    t.register r = .ok (t', record) →
      (∀ name spec p, r = .rule name spec → spec.compile = .ok p →
        (∀ pos : Nat, pos < text.length → ∃ answer, p.check text pos = .ok answer) →
        (∀ n,
          (∀ i < n, ∀ pos, scan.Looks t previewLength i pos → ¬ Exceeds text pos t.rules p) →
          (∀ i < n,
            let before := (scan.calls t previewLength i).scan
            before.next t' previewLength = before.next t previewLength) ∧
          scan.calls t' previewLength n = scan.calls t previewLength n ∧
          (scan.calls t' previewLength n).scan.skip t' =
            (scan.calls t previewLength n).scan.skip t) ∧
        ((∀ i ≤ run.tokens.length, ∀ pos, scan.Looks t previewLength i pos →
            ¬ Exceeds text pos t.rules p) →
          scan.run t' previewLength = run)) ∧
      ∀ name literal k w, r = .keyword name literal → keywordTexts name literal = .ok (k, w) →
        (∀ i ≤ run.tokens.length, ∀ pos, scan.Looks t previewLength i pos →
          w <+: text.drop pos → Reaches text pos t.rules w.length) →
        (∀ n ≤ run.tokens.length + 1,
          scan.calls t' previewLength n =
            (scan.calls t previewLength n).mapToken (Token.renamed w k)) ∧
        scan.run t' previewLength = run.mapToken (Token.renamed w k) ∧
        ∀ token ∈ run.tokens, (token.renamed w k).kind ≠ token.kind ↔ token.value = w := by
  intro t scan run hregister
  have ht : t.WellFormed := (afterAll_grows {} registrations).wellFormed wellFormed_empty
  have hregisters := registers_of_ok hregister
  constructor
  · rintro name spec p rfl hp hanswers
    obtain rfl : t' = t.addRule name.plain .rule p := by
      cases hregisters with
      | rule _ hp' => rw [Except.ok.inj (hp.symm.trans hp')]
    refine ⟨fun n hquiet => ?_, fun hquiet => ?_⟩
    · have hagrees := agrees_addRule t name.plain hanswers hquiet
      have hcalls := (calls_mapToken (ignored_addRule t) hagrees).trans (History.mapToken_id _)
      refine ⟨fun i hi => (hagrees i hi).trans (Step.mapToken_id _), hcalls, ?_⟩
      rw [hcalls]
      exact skip_congr (ignored_addRule t) _
    · have hagrees := agrees_addRule t name.plain hanswers fun i hi =>
        hquiet i (Nat.le_of_lt_succ hi)
      exact (run_mapToken hagrees).trans (Run.mapToken_id _)
  · rintro name literal k w rfl htexts hreaches
    obtain ⟨hname, hliteral, rfl⟩ : t.names.lookup k = none ∧ t.keywords.lookup w = none ∧
        t' = t.addKeyword k w := by
      cases hregisters with
      | keyword htexts' hname hliteral _ =>
        cases Except.ok.inj (htexts.symm.trans htexts')
        exact ⟨hname, hliteral, rfl⟩
    have hagrees : Agrees t (t.addKeyword k w) previewLength (Token.renamed w k) scan
        (run.tokens.length + 1) :=
      agrees_addKeyword ht hliteral k fun i hi => hreaches i (Nat.le_of_lt_succ hi)
    refine ⟨fun n hn => ?_, run_mapToken hagrees, fun token htoken => ?_⟩
    · exact calls_mapToken (ignored_addKeyword t) (hagrees.mono hn)
    · exact Token.renamed_kind_ne_iff (run_kind_ne ht hname scan token htoken)

end

attribute [local instance] Regex.plain

/-- A blank is ignored, and the one rule takes two characters, or the last one. -/
def twos : List Registration :=
  [.ignore (.pattern (.literal " ")),
    .rule (.string "pair") (.pattern (.custom ⟨"pair", fun _ _ => .ok (some 2)⟩))]

/-- A rule for less than two characters changes nothing. A keyword for the last character
gives its name to the piece that the end of the text has cut off. -/
theorem register_conservative_twos :
    let t := ({} : Table).afterAll twos
    let scan := start "do d"
    scan.run (t.after (.rule (.string "short") (.pattern (.literal "d")))) none = scan.run t none ∧
      (scan.run (t.after (.keyword (.string "D") (.string "d"))) none).tokens =
        [⟨"pair", "do", 1, 0⟩, ⟨"D", "d", 1, 3⟩] := by
  intro t scan
  have hreaches (pos : Nat) : Reaches scan.input pos t.rules "d".length :=
    ⟨⟨"pair", .custom ⟨"pair", fun _ _ => .ok (some 2)⟩⟩, List.mem_singleton_self _, 2, rfl,
      by decide⟩
  obtain ⟨hrule, -⟩ := register_conservative twos none scan.input
    (.rule (.string "short") (.pattern (.literal "d"))) _ _ rfl
  obtain ⟨-, hkeyword⟩ := register_conservative twos none scan.input
    (.keyword (.string "D") (.string "d")) _ _ rfl
  constructor
  · obtain ⟨-, hrun⟩ := hrule _ _ (.literal "d") rfl rfl fun _ _ => ⟨_, rfl⟩
    exact hrun fun _ _ pos _ => not_exceeds_literal fun _ => hreaches pos
  · obtain ⟨-, hrun, -⟩ := hkeyword _ _ "D" "d" rfl rfl fun _ _ pos _ _ => hreaches pos
    exact (congrArg Run.tokens hrun).trans (by decide +kernel)

end Scan
end Munch
