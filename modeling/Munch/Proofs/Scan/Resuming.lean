import Munch.Proofs.Scan.Comparing
import Munch.Proofs.Scan.Ending
import Munch.Proofs.Scan.Progress
import Munch.Proofs.Table.Adding
import Munch.Regex

/-! Calls that have failed.

A call of `next` that fails has made rounds of skipping and has taken nothing else
(`Nexts.left_by_failure`). Asked again it fails again, and the scan stays where it is. If
it failed because no rule matches, it is enough to register one that does: the next call
takes what that rule matches, under its name and at the place of the error
(`next_failed`). -/
namespace Munch.Scan
open Table
section
variable [Engine]
variable {t t' : Table} {previewLength : Option Int} {s : Scan} {k : Skipped} {step : Step}

/-- A call that fails leaves the scan where skipping has stopped. -/
theorem Nexts.left_by_failure (h : Nexts t previewLength k step) {e : Error}
    (herror : step.result = .error e) : step.scan = k.scan ∧ step.records = k.records := by
  cases h with
  | found _ _ _ | finish _ _ => cases herror
  | ignoreFails _ | ruleFails _ _ _ | unmatched _ _ _ => exact ⟨rfl, rfl⟩

/-- A scan has come to text that no rule matches, at a place. -/
structure Halted (t : Table) (s : Scan) (place : Position) : Prop where
  before : s.exhausted = false
  none : t.longest s.input s.cursor = .ok none
  position : s.position = place
  /-- Nothing is to be skipped there. -/
  skip : s.skip t = { scan := s }

theorem Nexts.halted (h : Nexts t previewLength k step)
    (hk : k.scan.skip t = { scan := k.scan, failure := k.failure }) {preview : Text}
    {place : Position} (herror : step.result = .error (.unmatched preview place)) :
    Halted t step.scan place := by
  cases h with
  | unmatched hf he hl =>
    cases herror
    exact ⟨he, hl, rfl, by rw [hk, hf]⟩
  | ignoreFails _ | finish _ _ | ruleFails _ _ _ | found _ _ _ => cases herror

theorem next_halted {preview : Text} {place : Position}
    (h : (s.next t previewLength).result = .error (.unmatched preview place)) :
    Halted t (s.next t previewLength).scan place :=
  (next_nexts t previewLength s).halted (skip_skips t s).again h

/-- Where there is nothing to skip and a rule is the longest, its token is next. -/
theorem next_of_longest (hskip : s.skip t = { scan := s }) (he : s.exhausted = false) {r : Rule}
    {n : Nat} (hl : t.longest s.input s.cursor = .ok (some (r, n))) :
    s.next t previewLength =
      ⟨s.consume n, [.token (s.tokenOf t r n)], .ok (some (s.tokenOf t r n))⟩ := by
  simp [next, hskip, he, take, hl, tokenOf]

/-- A rule that is added where no other one matches gives the next token. -/
theorem Halted.next_added {place : Position} (h : Halted t s place) (ht : t.WellFormed)
    {r : Registration} {record : Record} (hr : Registers t r t' record) {name : Text}
    {p : Pattern} (hrules : t'.rules = t.rules ++ [⟨name, p⟩]) {n : Nat}
    (hcheck : p.check s.input s.cursor = .ok (some (n : Int))) (hn : 0 < n) :
    let token : Token := ⟨name, (s.piece n), place.line, place.column⟩
    s.next t' previewLength = ⟨s.consume n, [.token token], .ok (some token)⟩ := by
  intro token
  have hbefore := not_exhausted_iff.mp h.before
  -- Rules and keywords leave what is ignored as it was.
  have hignored : t'.ignored = t.ignored := by
    cases hr with
    | ignore _ => simp [addIgnored] at hrules
    | rule _ _ => rfl
    | keyword _ _ _ _ => rfl
  have hskip : s.skip t' = { scan := s } := (skip_congr hignored s).trans h.skip
  have hlongest : t'.longest s.input s.cursor = .ok (some (⟨name, p⟩, n)) :=
    longest_added hrules h.none hcheck hn
  have hlookup := lookup_of_unmatched ht (Nat.le_of_lt hbefore) h.none n
  have hlabel : t'.relabel ⟨name, p⟩ (s.piece n) =
      (name, (s.piece n)) := hr.relabel_added hrules hcheck hlookup
  have htoken : s.tokenOf t' ⟨name, p⟩ n = token := by
    simp only [tokenOf, hlabel, h.position, token]
  rw [next_of_longest hskip h.before hlongest, htoken]

/-- **A call that fails** has made rounds of skipping and taken nothing of a rule. Called
again it fails with the same error and takes nothing at all. After an error of unmatched
text, a registration may add one rule to the table, be it a keyword's, whose pattern
matches some of the text: this is what the next call finds, under the name of the rule
and at the place of the error. -/
theorem next_failed (registrations : List Registration) (previewLength : Option Int) (s : Scan)
    (e : Error) :
    let t := ({} : Table).afterAll registrations
    let failed := s.next t previewLength
    failed.result = .error e →
      (∃ pieces, Rounds t s pieces failed.scan ∧
        failed.records = pieces.map Record.ignored) ∧
      failed.scan.next t previewLength = ⟨failed.scan, [], .error e⟩ ∧
      ∀ preview place, e = .unmatched preview place →
        ∀ r t' record name p (n : Nat), t.register r = .ok (t', record) →
          t'.rules = t.rules ++ [⟨name, p⟩] →
          p.check failed.scan.input failed.scan.cursor = .ok (some (n : Int)) → 0 < n →
          let token : Token :=
            ⟨name, (failed.scan.piece n), place.line, place.column⟩
          failed.scan.next t' previewLength =
            ⟨failed.scan.consume n, [.token token], .ok (some token)⟩ := by
  intro t failed herror
  have ht : t.WellFormed := (afterAll_grows {} registrations).wellFormed wellFormed_empty
  obtain ⟨hscan, hrecords⟩ := (next_nexts t previewLength s).left_by_failure herror
  refine ⟨⟨(s.skip t).pieces, ?_, hrecords⟩, ?_, ?_⟩
  · rw [hscan]
    exact (skip_skips t s).rounds
  · have htokens : failed.tokens = [] := by simp only [Step.tokens, herror]
    rw [next_ended htokens]
    show Step.mk failed.scan [] failed.result = _
    rw [herror]
  · rintro preview place rfl r t' record name p n hregister hrules hcheck hn
    exact (next_halted herror).next_added ht (registers_of_ok hregister) hrules hcheck hn

end

attribute [local instance] Regex.plain

/-- Blanks are ignored, and `a` is all that a rule matches. -/
def sparse : List Registration :=
  [.ignore (.pattern (.literal " ")), .rule (.string "letter") (.pattern (.literal "a"))]

/-- The blanks before a question mark are skipped, and a rule that is added after the
error takes the mark, although it matches more than there is. -/
theorem next_failed_sparse :
    let t := ({} : Table).afterAll sparse
    let late : Registration :=
      .rule (.string "rest") (.pattern (.custom ⟨"rest", fun _ _ => .ok (some 9)⟩))
    ((start "  ?").next t none).result = .error (.unmatched "?" ⟨1, 2⟩) ∧
      ((⟨"  ?", 2, ⟨1, 2⟩⟩ : Scan).next (t.after late) none).result =
        .ok (some ⟨"rest", "?", 1, 2⟩) := by
  intro t late
  have hfailed : (start "  ?").next t none =
      ⟨⟨"  ?", 2, ⟨1, 2⟩⟩, [.ignored " ", .ignored " "],
        .error (.unmatched "?" ⟨1, 2⟩)⟩ := rfl
  have herror : ((start "  ?").next t none).result =
      .error (.unmatched "?" ⟨1, 2⟩) := by rw [hfailed]
  obtain ⟨-, -, hresumes⟩ := next_failed sparse none (start "  ?") _ herror
  have hnext := hresumes "?" ⟨1, 2⟩ rfl late (t.after late) _ "rest" _ 9 rfl rfl rfl (by decide)
  refine ⟨herror, ?_⟩
  simp only [t] at hfailed
  rw [hfailed] at hnext
  exact congrArg Step.result hnext

end Munch.Scan
