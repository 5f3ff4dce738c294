import Munch.Proofs.Scan.Renaming
import Munch.Proofs.Table.Ignoring
import Munch.Regex

/-! Scans over tables that ignore as much.

What a scan skips depends on the lengths to ignore in its text, and not on the patterns
that give them. Two tables with the same rules and keywords whose lengths are the same
throughout a text scan it alike (`sameScans_of_ignoredLength`). So a pattern to ignore
that is redundant may be registered, and one that is idle may be left out
(`ignored_redundant`). -/
namespace Munch.Scan
open Table
section
variable [Engine]
variable {t t' : Table} {text : Text}

/-- Whatever a scan of the text does comes to the same over both tables. -/
structure SameScans (t t' : Table) (text : Text) : Prop where
  skip : ∀ s : Scan, s.input = text → s.skip t' = s.skip t
  next : ∀ (previewLength : Option Int) (s : Scan), s.input = text →
    s.next t' previewLength = s.next t previewLength
  calls : ∀ (previewLength : Option Int) (s : Scan) (n : Nat), s.input = text →
    s.calls t' previewLength n = s.calls t previewLength n
  run : ∀ (previewLength : Option Int) (s : Scan), s.input = text →
    s.run t' previewLength = s.run t previewLength

section Lengths
variable (hignored : ∀ pos : Nat, pos < text.length →
  t'.ignoredLength text pos = t.ignoredLength text pos)
include hignored

theorem skipFrom_eq_of_lengths (left : Nat) {s : Scan} (hs : s.input = text) :
    skipFrom t' left s = skipFrom t left s := by
  induction left generalizing s with
  | zero => rfl
  | succ left ih =>
    unfold skipFrom
    by_cases he : s.exhausted = true
    · rw [if_pos he, if_pos he]
    · have hbefore : s.cursor < text.length := by
        rw [← hs]
        exact not_exhausted_iff.mp (by simpa using he)
      rw [if_neg he, if_neg he, hs, hignored s.cursor hbefore]
      cases t.ignoredLength text s.cursor with
      | error f => rfl
      | ok length => simp only [ih (s := s.consume length.toNat) hs]

theorem skip_eq_of_lengths {s : Scan} (hs : s.input = text) : s.skip t' = s.skip t :=
  skipFrom_eq_of_lengths hignored s.left hs

variable (hrules : t'.rules = t.rules) (hkeywords : t'.keywords = t.keywords)
include hrules hkeywords

theorem next_eq_of_lengths (previewLength : Option Int) {s : Scan} (hs : s.input = text) :
    s.next t' previewLength = s.next t previewLength := by
  have htake (x : Scan) : x.take t' previewLength = x.take t previewLength := by
    simp only [take, longest, relabel, hrules, hkeywords]
  unfold next
  simp only [skip_eq_of_lengths hignored hs, htake]

theorem calls_eq_of_lengths (previewLength : Option Int) {s : Scan} (hs : s.input = text)
    (n : Nat) : s.calls t' previewLength n = s.calls t previewLength n := by
  induction n with
  | zero => rfl
  | succ n ih =>
    have hinput : (s.calls t previewLength n).scan.input = text := (calls_input ..).trans hs
    simp only [calls, pieces, ih, skip_eq_of_lengths hignored hinput,
      next_eq_of_lengths hignored hrules hkeywords previewLength hinput]

theorem run_eq_of_lengths (previewLength : Option Int) {s : Scan} (hs : s.input = text) :
    s.run t' previewLength = s.run t previewLength := by
  have hagrees (n : Nat) : Agrees t t' previewLength id s n := by
    intro i _ before
    have hinput : before.input = text := (calls_input ..).trans hs
    rw [Step.mapToken_id]
    exact next_eq_of_lengths hignored hrules hkeywords previewLength hinput
  exact (run_mapToken (hagrees _)).trans (Run.mapToken_id _)

/-- **Scans see lengths**, not the patterns that give them. -/
theorem sameScans_of_ignoredLength : SameScans t t' text where
  skip _ hs := skip_eq_of_lengths hignored hs
  next previewLength _ hs := next_eq_of_lengths hignored hrules hkeywords previewLength hs
  calls previewLength _ n hs := calls_eq_of_lengths hignored hrules hkeywords previewLength hs n
  run previewLength _ hs := run_eq_of_lengths hignored hrules hkeywords previewLength hs

end Lengths

/-- A pattern to ignore that is redundant changes nothing when it is registered. -/
theorem sameScans_addIgnored {q : Pattern}
    (hredundant : ∀ pos : Nat, pos < text.length → Redundant text pos t.ignored q) :
    SameScans t (t.addIgnored q) text := by
  refine sameScans_of_ignoredLength (fun pos hpos => ?_) rfl rfl
  have hlength := firstLength_redundant (hredundant pos hpos) []
  rwa [List.append_nil] at hlength

/-- **Patterns to ignore that do no work.** To register one more changes no scan of a text, if
wherever in the text it is not idle, one that is registered is not; so it is for any that is
equal to a registered one. And to leave out one that is idle everywhere in the text changes
no scan of it, wherever it stands in the list. -/
theorem ignored_redundant (t : Table) (text : Text) :
    (∀ (spec : PatternSpec) (q : Pattern), spec.compile = .ok q →
        (∀ pos : Nat, pos < text.length → Redundant text pos t.ignored q) →
        SameScans t (t.after (.ignore spec)) text) ∧
      (∀ (spec : PatternSpec) (p q : Pattern), spec.compile = .ok q → p ∈ t.ignored →
        q.same p = true → SameScans t (t.after (.ignore spec)) text) ∧
      ∀ (before : List Pattern) (p : Pattern) (after : List Pattern),
        t.ignored = before ++ p :: after →
        (∀ pos : Nat, pos < text.length → Idle text pos p) →
        SameScans t { t with ignored := before ++ after } text := by
  refine ⟨?_, ?_, ?_⟩
  · intro spec q hq hredundant
    rw [after_ignore hq]
    exact sameScans_addIgnored hredundant
  · intro spec p q hq hp hsame
    rw [after_ignore hq]
    have hmem : q ∈ t.ignored := Pattern.eq_of_same hsame ▸ hp
    exact sameScans_addIgnored fun pos _ => .of_mem hmem
  · intro before p after hlist hidle
    refine sameScans_of_ignoredLength (fun pos hpos => ?_) rfl rfl
    show firstLength text pos (before ++ after) = firstLength text pos t.ignored
    rw [hlist]
    exact (firstLength_redundant (.of_idle (hidle pos hpos)) after).symm

end

attribute [local instance] Regex.plain

/-- A boundary of words, which takes no characters. -/
def boundary : Regex := ⟨"\\b", ⟨{ unicode := true }, .anchor (.wordEdge false false)⟩⟩

/-- Boundaries and blanks are ignored. -/
def boundaries : Table where
  ignored := [.regex boundary, .literal " "]
  rules := [⟨"a", .literal "a"⟩]

/-- Two blanks begin with one, a boundary is there already, and no text is lost without it. -/
theorem ignored_redundant_boundaries :
    let text : Text := "a  a"
    SameScans boundaries (boundaries.after (.ignore (.pattern (.literal "  ")))) text ∧
      SameScans boundaries (boundaries.after (.ignore (.source "\\b"))) text ∧
      SameScans boundaries { boundaries with ignored := [.literal " "] } text := by
  intro text
  obtain ⟨hregister, hequal, hremove⟩ := ignored_redundant boundaries text
  have hcompile : (PatternSpec.source "\\b").compile = .ok (.regex boundary) := by
    have hregex : Engine.compile "\\b" = .ok boundary := by decide +kernel
    rw [PatternSpec.compile, hregex]
    rfl
  refine ⟨?_, ?_, ?_⟩
  · exact hregister _ _ rfl (by decide +kernel)
  · exact hequal _ _ _ hcompile List.mem_cons_self (by decide +kernel)
  · exact hremove [] _ _ rfl (by decide +kernel)

end Munch.Scan
