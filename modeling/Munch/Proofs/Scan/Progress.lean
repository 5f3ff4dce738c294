import Munch.Proofs.Scan.Lexing
import Munch.Regex

/-! Scanning comes to an end.

Skipping and scanning to the end are loops, and the numbers that they count down are no
part of what they do. `Rounds` is the loop of skipping without a bound. It has no more
rounds than there are characters left (`Rounds.length_le`), and skipping makes all rounds
there are (`Skips.rounds`, `Skips.stops`): an empty match of one pattern neither keeps the
loop going nor hides the patterns after it. A call that gives a token takes a character at
least, so a scan to the end takes no more pieces than there are characters left
(`run_progress`). -/
namespace Munch.Scan
open Table
section
variable [Engine]

/-! ### Rounds of skipping -/

/-- Rounds of skipping, one after the other, each while there are characters and a length
other than 0 is to be ignored. -/
inductive Rounds (t : Table) : Scan → List Text → Scan → Prop
  | nil {s} : Rounds t s [] s
  | cons {s n ps s'} : s.exhausted = false → t.ignoredLength s.input s.cursor = .ok n → n ≠ 0 →
      Rounds t (s.consume n.toNat) ps s' → Rounds t s (s.piece n.toNat :: ps) s'

variable {t : Table} {previewLength : Option Int} {s s' : Scan} {ps : List Text} {k : Skipped}
  {step : Step}

/-- Where no length is negative, every round takes a character. -/
theorem Rounds.takes (h : Rounds t s ps s') (hanswers : t.Answers s.input) : Takes s ps s' := by
  induction h with
  | nil => exact .nil
  | cons he hi hn _ ih =>
    have hnonneg := hanswers.ignoredLength_nonneg (not_exhausted_iff.mp he) hi
    exact .cons he (by omega) (ih hanswers)

/-- **Rounds are bounded** by the characters that are left. -/
theorem Rounds.length_le (h : Rounds t s ps s') (hanswers : t.Answers s.input) :
    ps.length ≤ s.left :=
  Nat.le_trans (Nat.le_add_left _ _) (h.takes hanswers).left_add_length_le

/-- The pieces that are skipped are those of rounds. -/
theorem Skips.rounds (h : Skips t s k) : Rounds t s k.pieces k.scan := by
  induction h with
  | finish _ => exact .nil
  | failure _ _ => exact .nil
  | rest _ _ _ => exact .nil
  | piece he hi hn _ ih => exact .cons he hi (by omega) ih

/-- Where skipping has stopped, there is no other round. -/
theorem Skips.stops (h : Skips t s k) (hanswers : t.Answers s.input)
    (hrounds : Rounds t k.scan ps s') : ps = [] := by
  induction h with
  | finish he =>
    cases hrounds with
    | nil => rfl
    | cons he' _ _ _ => simp [he] at he'
  | failure _ hi =>
    cases hrounds with
    | nil => rfl
    | cons _ hi' _ _ => simp [hi] at hi'
  | rest he hi hn =>
    cases hrounds with
    | nil => rfl
    | cons _ hi' hn' _ =>
      have hnonneg := hanswers.ignoredLength_nonneg (not_exhausted_iff.mp he) hi
      cases hi.symm.trans hi'
      omega
  | piece _ _ _ _ ih => exact ih hanswers hrounds

/-! ### One call -/

/-- Where the patterns give answers, a call gives one. -/
theorem Nexts.ne_failure (h : Nexts t previewLength k step) (hfailure : k.failure = none)
    (hanswers : t.Answers k.scan.input) (f : Failure) : step.result ≠ .error (.failure f) := by
  cases h with
  | ignoreFails hf => simp [hfailure] at hf
  | ruleFails _ he hl => exact absurd hl (hanswers.longest_ne_error (not_exhausted_iff.mp he) _)
  | finish _ _ | unmatched _ _ _ | found _ _ _ => nofun

theorem next_ne_failure (hanswers : t.Answers s.input) (f : Failure) :
    (s.next t previewLength).result ≠ .error (.failure f) := by
  have hskips := skip_skips t s
  refine (next_nexts t previewLength s).ne_failure (hskips.failure_eq hanswers) ?_ f
  rw [hskips.takes.input_eq]
  exact hanswers

/-- A call that gives a token begins before the end and moves on. -/
theorem next_advances {token : Token} (h : (s.next t previewLength).result = .ok (some token)) :
    s.cursor < s.input.length ∧ s.cursor < (s.next t previewLength).scan.cursor := by
  obtain ⟨_, htakes⟩ := next_takes t previewLength s
  have hlt := next_left_lt t previewLength h
  simp only [left, htakes.input_eq] at hlt
  omega

/-! ### Scans to the end -/

/-- A scan to the end takes pieces one after the other, of which its tokens are some. -/
theorem Runs.takes {run : Run} (h : Runs t previewLength s run) (ht : t.WellFormed) :
    ∃ pieces : List Piece, Takes s (pieces.map Piece.text) run.scan ∧
      run.tokens = pieces.filterMap Piece.token? ∧ run.records = pieces.map Piece.record := by
  induction h with
  | @stop s e hr =>
    refine ⟨_, next_takes_pieces ht previewLength s, ?_, next_records ..⟩
    simp [pieces_tokens, Step.tokens, hr]
  | @finish s hr =>
    refine ⟨_, next_takes_pieces ht previewLength s, ?_, next_records ..⟩
    simp [pieces_tokens, Step.tokens, hr]
  | @token s token rest hr _ ih =>
    obtain ⟨pieces, htakes, htokens, hrecords⟩ := ih
    refine ⟨s.pieces t previewLength ++ pieces, ?_, ?_, ?_⟩
    · rw [List.map_append]
      exact (next_takes_pieces ht previewLength s).append htakes
    · simp [pieces_tokens, Step.tokens, hr, htokens]
    · rw [List.map_append, hrecords, next_records]

/-- **Scanning comes to an end**, whatever patterns match no characters: skipping makes at
most as many rounds as there are characters left, and then there is none to make; a call
that gives a token begins before the end of the text and moves on; and a scan to the end
takes at most as many pieces as there are characters left, tokens among them. -/
theorem run_progress (registrations : List Registration) (previewLength : Option Int)
    (s : Scan) :
    let t := ({} : Table).afterAll registrations
    let k := s.skip t
    let step := s.next t previewLength
    let run := s.run t previewLength
    t.Answers s.input →
      (∀ ps s', Rounds t s ps s' → ps.length ≤ s.input.length - s.cursor) ∧
      Rounds t s k.pieces k.scan ∧ (∀ ps s', Rounds t k.scan ps s' → ps = []) ∧
      Nexts t previewLength k step ∧ (∀ f, step.result ≠ .error (.failure f)) ∧
      (∀ token, step.result = .ok (some token) →
        s.cursor < s.input.length ∧ s.cursor < step.scan.cursor) ∧
      Runs t previewLength s run ∧
      ∃ pieces : List Piece, Takes s (pieces.map Piece.text) run.scan ∧
        run.tokens = pieces.filterMap Piece.token? ∧ run.records = pieces.map Piece.record ∧
        pieces.length ≤ s.input.length - s.cursor ∧
        run.tokens.length ≤ s.input.length - s.cursor := by
  intro t k step run hanswers
  have ht : t.WellFormed := (afterAll_grows {} registrations).wellFormed wellFormed_empty
  have hskips : Skips t s k := skip_skips t s
  have hruns : Runs t previewLength s run := run_runs t previewLength s
  obtain ⟨pieces, htakes, htokens, hrecords⟩ := hruns.takes ht
  have hpieces : pieces.length ≤ s.left := by
    have hlength := htakes.left_add_length_le
    rw [List.length_map] at hlength
    omega
  refine ⟨fun ps s' h => h.length_le hanswers, hskips.rounds,
    fun ps s' h => hskips.stops hanswers h, next_nexts t previewLength s,
    next_ne_failure hanswers, fun token => next_advances, hruns,
    pieces, htakes, htokens, hrecords, hpieces, ?_⟩
  rw [htokens]
  exact Nat.le_trans (List.length_filterMap_le _ _) hpieces

end

attribute [local instance] Regex.plain

/-- Nothing is ignored first, and then blanks are; a rule reports less than nothing, and
another one two characters everywhere. -/
def blanks : List Registration :=
  [.ignore (.pattern (.custom ⟨"nothing", fun _ _ => .ok (some 0)⟩)),
    .ignore (.pattern (.literal " ")),
    .rule (.string "less") (.pattern (.custom ⟨"less", fun _ _ => .ok (some (-1))⟩)),
    .rule (.string "pair") (.pattern (.custom ⟨"pair", fun _ _ => .ok (some 2)⟩))]

theorem blanks_answers (text : Text) : (({} : Table).afterAll blanks).Answers text := by
  have hignored : (({} : Table).afterAll blanks).ignored =
      [.custom ⟨"nothing", fun _ _ => .ok (some 0)⟩, .literal " "] := rfl
  have hrules : (({} : Table).afterAll blanks).rules =
      [⟨"less", .custom ⟨"less", fun _ _ => .ok (some (-1))⟩⟩,
        ⟨"pair", .custom ⟨"pair", fun _ _ => .ok (some 2)⟩⟩] := rfl
  refine ⟨?_, ?_⟩
  · rw [hignored]
    refine List.forall_mem_cons.mpr ⟨fun pos _ => ⟨some 0, rfl, by simp⟩, ?_⟩
    exact List.forall_mem_singleton.mpr fun pos hpos => Pattern.literal_answers _ hpos
  · rw [hrules]
    refine List.forall_mem_cons.mpr ⟨fun pos _ => ⟨_, rfl⟩, ?_⟩
    exact List.forall_mem_singleton.mpr fun pos _ => ⟨_, rfl⟩

/-- The second token ends behind the text, and the pieces are as many as there are
characters but one. -/
theorem run_progress_blanks :
    (({} : Table).afterAll blanks).Answers " ab c" ∧
      ((start " ab c").run (({} : Table).afterAll blanks) none).tokens =
        [⟨"pair", "ab", 1, 1⟩, ⟨"pair", "c", 1, 4⟩] ∧
      ((start " ab c").run (({} : Table).afterAll blanks) none).scan.cursor = 6 ∧
      ((start " ab c").run (({} : Table).afterAll blanks) none).tokens.length
        ≤ 5 := by
  have hanswers := blanks_answers " ab c"
  obtain ⟨-, -, -, -, -, -, -, _, -, -, -, -, htokens⟩ :=
    run_progress blanks none (start " ab c") hanswers
  exact ⟨hanswers, by decide +kernel, by decide +kernel, htokens⟩

end Munch.Scan
