import Munch.Proofs.Scan.Renaming
import Munch.Proofs.Table.Placement
import Munch.Regex

/-! Starting again on the text that is left.

What a literal matches at a place depends on the text from there on and on nothing before
it. If this is so for all patterns of a table (`Table.Forward`), a scan that is somewhere in
a text and a new scan of the text that is left there go on alike: they skip the same pieces,
and they find the same tokens and the same error. Only the places differ. Those of the new
scan count from its beginning and are moved to where that is in the whole text; on the first
line the columns are moved too (`Position.within`). The two scans are compared call by call
(`next_within`), and the new one stays on the text it was given (`Inside`). -/
namespace Munch

/-! ### Places counted from elsewhere -/

/-- The position in a text of a position that is counted from `origin` on. -/
def Position.within (origin p : Position) : Position :=
  ⟨origin.line + p.line - 1, if p.line = 1 then origin.column + p.column else p.column⟩

def Token.within (origin : Position) (token : Token) : Token :=
  let place := origin.within ⟨token.line, token.column⟩
  { token with line := place.line, column := place.column }

/-- The error with its place, if it has one, counted from where `origin` is counted from. -/
def Error.within (origin : Position) : Error → Error
  | unmatched preview place => unmatched preview (origin.within place)
  | e => e

theorem Error.ofIteration_within (origin : Position) (e : Error) :
    (e.within origin).ofIteration = e.ofIteration.within origin := by
  cases e <;> rfl

namespace Position

theorem within_start (origin : Position) : origin.within {} = origin := by
  simp [within]

theorem line_le_advance (p : Position) (text : Text) : p.line ≤ (p.advance text).line := by
  unfold advance
  by_cases h : .char '\n' ∈ text
  · rw [if_pos h]
    show p.line ≤ p.line + text.count (.char '\n')
    omega
  · simp only [if_neg h, Int.le_refl]

/-- Reading on moves a position in the same way wherever it is counted from. -/
theorem within_advance (origin : Position) {p : Position} (hp : 1 ≤ p.line) (text : Text) :
    origin.within (p.advance text) = (origin.within p).advance text := by
  unfold advance
  by_cases h : .char '\n' ∈ text
  · -- A newline leaves the first line behind, and with it the column of `origin`.
    have hcount := List.count_pos_iff.mpr h
    have hline : p.line + text.count (.char '\n') ≠ 1 := by omega
    rw [if_pos h, if_pos h]
    simp only [within, if_neg hline, mk.injEq, and_true]
    omega
  · rw [if_neg h, if_neg h]
    by_cases hfirst : p.line = 1
    · simp only [within, if_pos hfirst, mk.injEq, true_and]
      omega
    · simp only [within, if_neg hfirst]

end Position

namespace Scan
variable {s f : Scan}

/-! ### A scan inside another -/

/-- Where a scan of the text that `s` has left is in the text of `s`. -/
def within (s f : Scan) : Scan :=
  { s with cursor := s.cursor + f.cursor, position := s.position.within f.position }

def Skipped.within (s : Scan) (k : Skipped) : Skipped := { k with scan := s.within k.scan }

def Step.within (s : Scan) (step : Step) : Step where
  scan := s.within step.scan
  records := step.records.map (Record.mapToken (Token.within s.position))
  result := (step.result.map (Option.map (Token.within s.position))).mapError
    (Error.within s.position)

def Run.within (s : Scan) (run : Run) : Run where
  scan := s.within run.scan
  records := run.records.map (Record.mapToken (Token.within s.position))
  tokens := run.tokens.map (Token.within s.position)
  stop := run.stop.map (Error.within s.position)

/-- A scan of the text that `s` has left. -/
structure Inside (s f : Scan) : Prop where
  input : f.input = s.remaining
  line : 1 ≤ f.position.line

theorem within_start (s : Scan) : s.within (start s.remaining) = s := by
  simp [within, start, Position.within_start]

theorem start_inside (s : Scan) : s.Inside (start s.remaining) where
  input := rfl
  line := Int.le_refl 1

namespace Inside

theorem consume (h : s.Inside f) (n : Nat) : s.Inside (f.consume n) where
  input := h.input
  line := Int.le_trans h.line (Position.line_le_advance _ _)

theorem takes (h : s.Inside f) {ps : List Text} {f' : Scan} (htakes : Takes f ps f') :
    s.Inside f' := htakes.preserves (fun _ n hx => hx.consume n) h

theorem length_eq (h : s.Inside f) : f.input.length = s.input.length - s.cursor := by
  rw [h.input, remaining, List.length_drop]

theorem remaining_eq (h : s.Inside f) : (s.within f).remaining = f.remaining := by
  show s.input.drop (s.cursor + f.cursor) = f.input.drop f.cursor
  rw [h.input, remaining, List.drop_drop]

theorem left_eq (h : s.Inside f) : (s.within f).left = f.left := by
  show s.input.length - (s.cursor + f.cursor) = f.input.length - f.cursor
  rw [h.length_eq]
  omega

theorem exhausted_eq (h : s.Inside f) : (s.within f).exhausted = f.exhausted := by
  apply Bool.eq_iff_iff.mpr
  rw [exhausted_iff, exhausted_iff, h.length_eq]
  show s.input.length ≤ s.cursor + f.cursor ↔ _
  omega

theorem piece_eq (h : s.Inside f) (n : Nat) : (s.within f).piece n = f.piece n := by
  rw [piece, piece, h.remaining_eq]

theorem preview_eq (h : s.Inside f) (length : Option Int) :
    (s.within f).preview length = f.preview length := by
  simp only [preview, h.remaining_eq]

theorem consume_eq (h : s.Inside f) (n : Nat) :
    (s.within f).consume n = s.within (f.consume n) := by
  have hposition : (s.within f).position.advance (f.piece n) =
      s.position.within (f.consume n).position :=
    (Position.within_advance s.position h.line _).symm
  have hcursor : s.cursor + f.cursor + n = s.cursor + (f.cursor + n) := Nat.add_assoc ..
  rw [Scan.consume, h.piece_eq, hposition]
  show Scan.mk s.input (s.cursor + f.cursor + n) _ = _
  rw [hcursor]
  rfl

end Inside

end Scan

/-! ### Patterns that do not look back -/

section
variable [Engine]

/-- What the pattern matches at a place depends on the text from there on. -/
def Pattern.Forward (p : Pattern) : Prop :=
  ∀ (text : Text) (pos : Nat), pos ≤ text.length → p.check text pos = p.check (text.drop pos) 0

theorem Pattern.forward_literal (l : Text) : (literal l).Forward := by
  intro text pos hpos
  have hfrom : checkLiteral l text pos = checkLiteral l (text.drop pos) (0 : Nat) := by
    simp only [checkLiteral, literalStart_natCast, hpos, Nat.zero_le, List.drop_zero, true_and]
  exact congrArg Except.ok hfrom

theorem Pattern.Forward.check_drop {p : Pattern} (h : p.Forward) {text : Text} {start pos : Nat}
    (hpos : start + pos ≤ text.length) :
    p.check text (start + pos : Nat) = p.check (text.drop start) pos := by
  have hrest : pos ≤ (text.drop start).length := by
    rw [List.length_drop]
    omega
  rw [h text _ hpos, h (text.drop start) pos hrest, List.drop_drop]

namespace Table
variable {t : Table}

/-- No pattern of the table looks at the text before the place it is asked about. -/
structure Forward (t : Table) : Prop where
  ignored : ∀ p ∈ t.ignored, p.Forward
  rules : ∀ r ∈ t.rules, r.pattern.Forward

/-- The rule of a keyword matches a literal, so it does not look back. -/
theorem WellFormed.forward_keyword (h : t.WellFormed) {r : Rule} (hr : r ∈ t.rules)
    (hplain : t.isPlain r = false) : r.pattern.Forward := by
  obtain ⟨e, -, -, rfl⟩ := h.exists_keyword hr hplain
  exact Pattern.forward_literal e.1

theorem WellFormed.forward (h : t.WellFormed) (hignored : ∀ p ∈ t.ignored, p.Forward)
    (hplain : ∀ r ∈ t.plainRules, r.pattern.Forward) : t.Forward where
  ignored := hignored
  rules r hr := by
    cases hr' : t.isPlain r with
    | true => exact hplain r (List.mem_filter.mpr ⟨hr, hr'⟩)
    | false => exact h.forward_keyword hr hr'

end Table

namespace Scan
variable {t : Table} {previewLength : Option Int} {s f : Scan}

namespace Inside

theorem next (h : s.Inside f) : s.Inside (f.next t previewLength).scan := by
  obtain ⟨_, htakes⟩ := next_takes t previewLength f
  exact h.takes htakes

theorem calls (h : s.Inside f) (n : Nat) : s.Inside (f.calls t previewLength n).scan :=
  calls_preserves t previewLength (fun _ n hx => hx.consume n) h n

/-- The text behind a place of one scan is that behind the place of the other. -/
theorem check_eq (h : s.Inside f) (he : f.exhausted = false) {p : Pattern} (hp : p.Forward) :
    p.check (s.within f).input (s.within f).cursor = p.check f.input f.cursor := by
  have hbefore := not_exhausted_iff.mp he
  rw [h.length_eq] at hbefore
  have hpos : s.cursor + f.cursor ≤ s.input.length := by omega
  rw [h.input]
  exact hp.check_drop hpos

theorem ignoredLength_eq (h : s.Inside f) (he : f.exhausted = false) (ht : t.Forward) :
    t.ignoredLength (s.within f).input (s.within f).cursor =
      t.ignoredLength f.input f.cursor :=
  Table.firstLength_congr fun p hp => h.check_eq he (ht.ignored p hp)

theorem longest_eq (h : s.Inside f) (he : f.exhausted = false) (ht : t.Forward) :
    t.longest (s.within f).input (s.within f).cursor = t.longest f.input f.cursor :=
  Table.longestFrom_congr (fun r hr => h.check_eq he (ht.rules r hr)) none

end Inside

/-! ### One call -/

theorem skipFrom_within (ht : t.Forward) (left : Nat) (h : s.Inside f) :
    skipFrom t left (s.within f) = (skipFrom t left f).within s := by
  induction left generalizing f with
  | zero => rfl
  | succ left ih =>
    rw [skipFrom, skipFrom, h.exhausted_eq]
    by_cases he : f.exhausted = true
    · rw [if_pos he, if_pos he]
      rfl
    · rw [if_neg he, if_neg he, h.ignoredLength_eq (by simpa using he) ht]
      cases t.ignoredLength f.input f.cursor with
      | error g => rfl
      | ok n =>
        by_cases hn : n ≤ 0
        · simp only [if_pos hn]
          rfl
        · simp only [if_neg hn, h.piece_eq, h.consume_eq, ih (h.consume n.toNat)]
          rfl

theorem skip_within (ht : t.Forward) (h : s.Inside f) :
    (s.within f).skip t = (f.skip t).within s := by
  rw [skip, skip, h.left_eq]
  exact skipFrom_within ht f.left h

variable (previewLength)

theorem take_within (ht : t.Forward) (h : s.Inside f) (he : f.exhausted = false) :
    (s.within f).take t previewLength = (f.take t previewLength).within s := by
  rw [take, take, h.longest_eq he ht]
  cases t.longest f.input f.cursor with
  | error g => rfl
  | ok winner =>
    cases winner with
    | none =>
      rw [h.preview_eq]
      rfl
    | some won =>
      simp only [h.piece_eq, h.consume_eq]
      rfl

/-- **A call goes on alike** over the text that was left: it comes to the same, with its
places moved. -/
theorem next_within (ht : t.Forward) (h : s.Inside f) :
    (s.within f).next t previewLength = (f.next t previewLength).within s := by
  have hskipped : s.Inside (f.skip t).scan := h.takes (skip_skips t f).takes
  have hrecords := ignored_mapToken (Token.within s.position) (f.skip t).pieces
  rw [next, next, skip_within ht h]
  simp only [Skipped.within]
  cases (f.skip t).failure with
  | some g => exact congrArg (Step.mk _ · _) hrecords
  | none =>
    simp only [hskipped.exhausted_eq]
    by_cases he : (f.skip t).scan.exhausted = true
    · simp only [if_pos he]
      exact congrArg (Step.mk _ · _) hrecords
    · simp only [if_neg he, take_within previewLength ht hskipped (by simpa using he)]
      simp only [Step.within, List.map_append, ← hrecords]

/-! ### Any number of calls -/

theorem calls_within (ht : t.Forward) (h : s.Inside f) (n : Nat) :
    ((s.within f).calls t previewLength n).scan = s.within (f.calls t previewLength n).scan := by
  induction n with
  | zero => rfl
  | succ n ih =>
    show (((s.within f).calls t previewLength n).scan.next t previewLength).scan = _
    rw [ih, next_within previewLength ht (h.calls n)]
    rfl

variable {previewLength}

theorem result_within (ht : t.Forward) (h : s.Inside f) {result : Except Error (Option Token)}
    (hr : (f.next t previewLength).result = result) :
    ((s.within f).next t previewLength).result =
      (result.map (Option.map (Token.within s.position))).mapError (Error.within s.position) := by
  rw [next_within previewLength ht h, ← hr]
  rfl

theorem Runs.within (ht : t.Forward) {run : Run} (hruns : Runs t previewLength f run)
    (h : s.Inside f) : Runs t previewLength (s.within f) (run.within s) := by
  induction hruns with
  | stop hr =>
    have hwithin := Runs.stop (result_within ht h hr)
    rwa [next_within previewLength ht h, Error.ofIteration_within] at hwithin
  | finish hr =>
    have hwithin := Runs.finish (result_within ht h hr)
    rwa [next_within previewLength ht h] at hwithin
  | @token f token rest hr _ ih =>
    have hnext := next_within previewLength ht h
    have hrest : Runs t previewLength ((s.within f).next t previewLength).scan
        (rest.within s) := by
      rw [hnext]
      exact ih h.next
    have hwithin := Runs.token (result_within ht h hr) hrest
    rw [hnext] at hwithin
    simpa [Run.within, Step.within] using hwithin

theorem run_within (ht : t.Forward) (h : s.Inside f) :
    (s.within f).run t previewLength = (f.run t previewLength).within s :=
  (run_runs t previewLength _).unique ((run_runs t previewLength f).within ht h)

/-- **A scan can be started again where it is.** Literals, and so the rules of keywords, do
not look back. If no other pattern of the table does, then after any calls the scan goes on
as a new one does over the text that is left: to the end and call by call, with the same
tokens, records and errors, at the places that theirs are in the whole text. -/
theorem calls_restart (registrations : List Registration) (text : Text)
    (previewLength : Option Int) (n : Nat) :
    let t := ({} : Table).afterAll registrations
    let s := ((start text).calls t previewLength n).scan
    let fresh := start (text.drop s.cursor)
    let call := fun (scan : Scan) m => (scan.calls t previewLength m).scan.next t previewLength
    (∀ l, (Pattern.literal l).Forward) ∧
      (∀ r ∈ t.rules, t.isPlain r = false → r.pattern.Forward) ∧
      ((∀ p ∈ t.ignored, p.Forward) → (∀ r ∈ t.plainRules, r.pattern.Forward) →
        s.run t previewLength = (fresh.run t previewLength).within s ∧
          ∀ m, call s m = (call fresh m).within s) := by
  intro t s fresh call
  have hgrown : t.WellFormed := Table.afterAll_wellFormed registrations
  refine ⟨Pattern.forward_literal, fun r hr => hgrown.forward_keyword hr, ?_⟩
  intro hignored hplain
  have ht : t.Forward := hgrown.forward hignored hplain
  have hinput : s.input = text := calls_input t previewLength (start text) n
  have hfresh : fresh = start s.remaining := by rw [remaining, hinput]
  have hinside : s.Inside fresh := hfresh ▸ start_inside s
  have hstart : s.within fresh = s := hfresh ▸ within_start s
  constructor
  · rw [← run_within ht hinside, hstart]
  · intro m
    have hscan := calls_within previewLength ht hinside m
    rw [hstart] at hscan
    show (s.calls t previewLength m).scan.next t previewLength = _
    rw [hscan, next_within previewLength ht (hinside.calls m)]

end Scan

end

namespace Scan
attribute [local instance] Regex.plain

/-- The number of digits that come next. -/
def digits : Custom where
  shown := "digits"
  check text pos := .ok (some ((text.drop pos.toNat).takeWhile (·.isChar Char.isDigit)).length)

theorem forward_digits : (Pattern.custom digits).Forward := fun _ _ _ => rfl

/-- Blanks and newlines are ignored, and there are letters, numbers and a keyword. -/
def numbered : List Registration :=
  [.ignore (.pattern (.literal " ")), .ignore (.pattern (.literal "\n")),
    .rule (.string "letter") (.pattern (.literal "a")),
    .rule (.string "number") (.pattern (.custom digits)), .keyword (.string "if") .null]

/-- What is left after the letter is scanned anew: on its first line the columns are one
less than in the whole text, and on the next one they are the same. -/
theorem calls_restart_numbered :
    let t := ({} : Table).afterAll numbered
    let text : Text := "a if\n 12?"
    let s := ((start text).calls t none 1).scan
    let fresh := start (text.drop s.cursor)
    s = ⟨text, 1, ⟨1, 1⟩⟩ ∧ (∀ p ∈ t.ignored, p.Forward) ∧
      (∀ r ∈ t.plainRules, r.pattern.Forward) ∧
      s.run t none = (fresh.run t none).within s ∧
      (fresh.run t none).tokens = [⟨"if", "if", 1, 1⟩, ⟨"number", "12", 2, 1⟩] ∧
      (s.run t none).tokens = [⟨"if", "if", 1, 2⟩, ⟨"number", "12", 2, 1⟩] ∧
      (s.run t none).stop.map Error.message =
        some "unexpected input <?> on line 2, column 3" := by
  intro t text s fresh
  obtain ⟨hliteral, -, hrestart⟩ := calls_restart numbered text none 1
  have hignored : ∀ p ∈ t.ignored, p.Forward := by
    have hpatterns : t.ignored = [.literal " ", .literal "\n"] := rfl
    simp [hpatterns, hliteral]
  have hplain : ∀ r ∈ t.plainRules, r.pattern.Forward := by
    have hrules : t.plainRules = [⟨"letter", .literal "a"⟩, ⟨"number", .custom digits⟩] := rfl
    simp [hrules, hliteral, forward_digits]
  have hs : s = ⟨text, 1, ⟨1, 1⟩⟩ := by decide +kernel
  have hfresh : (fresh.run t none).tokens = [⟨"if", "if", 1, 1⟩, ⟨"number", "12", 2, 1⟩] := by
    decide +kernel
  have hrun : s.run t none = (fresh.run t none).within s := (hrestart hignored hplain).1
  refine ⟨hs, hignored, hplain, hrun, hfresh, ?_, by decide +kernel⟩
  rw [hrun]
  simp only [Run.within, hfresh, hs]
  decide

end Scan
end Munch
