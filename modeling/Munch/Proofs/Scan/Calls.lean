import Munch.Proofs.Scan.Taking
import Munch.Proofs.Table.Names

/-! Calls of `next` one after the other.

`Scan.calls` makes any number of calls, whatever each of them comes to, and keeps
the pieces that were taken (`Piece`) and the records. A scan to the end is calls
too: its tokens are what the first calls give, and what ends it is the result of
the call after them (`Runs.tokens_eq`, `Runs.result_of_stop`). -/
namespace Munch

/-- A piece of text that a scan has taken: it was to be ignored, or it is a token. -/
inductive Piece
  | ignored (text : Text)
  | token (t : Token)

namespace Piece

def text : Piece → Text
  | ignored text => text
  | token t => t.value

def record : Piece → Record
  | ignored text => .ignored text
  | token t => .token t

/-- What the log says of a piece. -/
def message : Piece → Text
  | ignored text => "ignored " ++ Text.quoted text
  | token t => "token " ++ t.shown

theorem record_message (p : Piece) : p.record.message = p.message := by
  cases p <;> rfl

theorem record_origin (p : Piece) : p.record.origin = "rulelex.scanner" := by
  cases p <;> rfl

end Piece

namespace Scan

/-- The token that a step gives, if it gives one. -/
def Step.tokens (step : Step) : List Token :=
  match step.result with
  | .ok (some token) => [token]
  | _ => []

instance (result : Except Error (Option Token)) : Decidable (result = .ok none) :=
  match result with
  | .ok none => isTrue rfl
  | .ok (some _) => isFalse (by simp)
  | .error _ => isFalse (by simp)

variable [Engine]

/-- The pieces that a call of `next` takes: what it skips, and its token. -/
def pieces (t : Table) (previewLength : Option Int) (s : Scan) : List Piece :=
  (s.skip t).pieces.map .ignored ++ (s.next t previewLength).tokens.map .token

/-! ### One call -/

theorem longest_positive {t : Table} {s : Scan} {r : Rule} {n : Nat}
    (h : t.longest s.input s.cursor = .ok (some (r, n))) : 0 < n := by
  obtain ⟨-, -, -, hn, -⟩ := Table.wins_of_longest h
  exact hn

theorem Nexts.takes {t : Table} {previewLength : Option Int} {s : Scan} {k : Skipped}
    {step : Step} (h : Nexts t previewLength k step) (hk : Takes s k.pieces k.scan) :
    ∃ ps, Takes s ps step.scan := by
  cases h with
  | ignoreFails _ => exact ⟨_, hk⟩
  | finish _ _ => exact ⟨_, hk⟩
  | ruleFails _ _ _ => exact ⟨_, hk⟩
  | unmatched _ _ _ => exact ⟨_, hk⟩
  | found _ he hl => exact ⟨_, hk.append (.single he (longest_positive hl))⟩

theorem next_takes (t : Table) (previewLength : Option Int) (s : Scan) :
    ∃ ps, Takes s ps (s.next t previewLength).scan :=
  (next_nexts t previewLength s).takes (skip_skips t s).takes

/-- In a table that is well formed, a token has the text that was taken for it. -/
theorem tokenOf_text {t : Table} (h : t.WellFormed) (s : Scan) (r : Rule) (n : Nat) :
    (s.tokenOf t r n).value = s.piece n := by
  rw [tokenOf, h.relabel_value]

theorem Nexts.takes_tokens {t : Table} (ht : t.WellFormed) {previewLength : Option Int}
    {k : Skipped} {step : Step} (h : Nexts t previewLength k step) :
    Takes k.scan (step.tokens.map Token.value) step.scan := by
  cases h with
  | ignoreFails _ => exact .nil
  | finish _ _ => exact .nil
  | ruleFails _ _ _ => exact .nil
  | unmatched _ _ _ => exact .nil
  | found _ he hl =>
    simp only [Step.tokens, List.map_singleton, tokenOf_text ht]
    exact .single he (longest_positive hl)

theorem Nexts.records_eq {t : Table} {previewLength : Option Int} {k : Skipped} {step : Step}
    (h : Nexts t previewLength k step) :
    step.records = k.records ++ step.tokens.map .token := by
  cases h with
  | found _ _ _ => rfl
  | _ => simp [Step.tokens]

/-- What a call takes are its pieces, and it puts one record of each on record. -/
theorem next_takes_pieces {t : Table} (ht : t.WellFormed) (previewLength : Option Int) (s : Scan) :
    Takes s ((s.pieces t previewLength).map Piece.text) (s.next t previewLength).scan := by
  have h := (skip_skips t s).takes.append ((next_nexts t previewLength s).takes_tokens ht)
  simpa [pieces, Piece.text, Function.comp_def] using h

theorem next_records (t : Table) (previewLength : Option Int) (s : Scan) :
    (s.next t previewLength).records = (s.pieces t previewLength).map Piece.record := by
  rw [(next_nexts t previewLength s).records_eq]
  simp [pieces, Skipped.records, Piece.record, Function.comp_def]

theorem exhausted_of_end {t : Table} {previewLength : Option Int} {k : Skipped} {step : Step}
    (h : Nexts t previewLength k step) (hend : step.result = .ok none) :
    step.scan.exhausted = true := by
  cases h with
  | finish _ he => exact he
  | _ => cases hend

/-- A token is what the longest rule has matched after skipping. -/
theorem Nexts.exists_winner {t : Table} {previewLength : Option Int} {k : Skipped} {step : Step}
    (h : Nexts t previewLength k step) {token : Token} (htoken : step.result = .ok (some token)) :
    ∃ r n, Table.Wins k.scan.input k.scan.cursor t.rules r n ∧ token = k.scan.tokenOf t r n := by
  cases h with
  | @found r n _ _ hl =>
    cases htoken
    exact ⟨r, n, Table.wins_of_longest hl, rfl⟩
  | _ => cases htoken

/-! ### Any number of calls -/

/-- What calls have left: the scan, the pieces that were taken, and the records. -/
structure History where
  scan : Scan
  pieces : List Piece := []
  records : List Record := []

/-- Calls `next` a number of times; a call that fails leaves its scan to the one after it. -/
def calls (t : Table) (previewLength : Option Int) (s : Scan) : Nat → History
  | 0 => { scan := s }
  | n + 1 =>
    let before := s.calls t previewLength n
    let step := before.scan.next t previewLength
    { scan := step.scan
      pieces := before.pieces ++ before.scan.pieces t previewLength
      records := before.records ++ step.records }

variable (t : Table) (previewLength : Option Int)

theorem calls_takes (ht : t.WellFormed) (s : Scan) (n : Nat) :
    Takes s ((s.calls t previewLength n).pieces.map Piece.text)
      (s.calls t previewLength n).scan := by
  induction n with
  | zero => exact .nil
  | succ n ih =>
    rw [calls, List.map_append]
    exact ih.append (next_takes_pieces ht previewLength _)

theorem calls_records (s : Scan) (n : Nat) :
    (s.calls t previewLength n).records =
      (s.calls t previewLength n).pieces.map Piece.record := by
  induction n with
  | zero => rfl
  | succ n ih => rw [calls, List.map_append, ih, next_records]

/-- What every call keeps is kept by all of them. -/
theorem calls_of_next {P : Scan → Prop} (hnext : ∀ s, P s → P (s.next t previewLength).scan)
    {s : Scan} (h : P s) (n : Nat) : P (s.calls t previewLength n).scan := by
  induction n with
  | zero => exact h
  | succ n ih => exact hnext _ ih

/-- What holds of a scan, however much it takes, holds after calls. -/
theorem calls_preserves {P : Scan → Prop} (hconsume : ∀ s n, P s → P (s.consume n)) {s : Scan}
    (h : P s) (n : Nat) : P (s.calls t previewLength n).scan := by
  refine calls_of_next t previewLength (fun x hx => ?_) h n
  obtain ⟨ps, htakes⟩ := next_takes t previewLength x
  exact htakes.preserves hconsume hx

theorem calls_input (s : Scan) (n : Nat) : (s.calls t previewLength n).scan.input = s.input :=
  calls_preserves t previewLength (P := fun x => x.input = s.input) (fun _ _ h => h) rfl n

/-- The first call and those after it. -/
theorem calls_succ (s : Scan) (n : Nat) :
    (s.calls t previewLength (n + 1)).scan =
      ((s.next t previewLength).scan.calls t previewLength n).scan := by
  induction n with
  | zero => rfl
  | succ n ih =>
    rw [calls, ih]
    rfl

/-! ### Scans to the end -/

theorem skip_of_exhausted {s : Scan} (h : s.exhausted = true) : s.skip t = { scan := s } := by
  have hleft : s.left = 0 := by
    have hend := exhausted_iff.mp h
    simp only [left]
    omega
  rw [skip, hleft, skipFrom]

theorem next_of_exhausted {s : Scan} (h : s.exhausted = true) :
    s.next t previewLength = ⟨s, [], .ok none⟩ := by
  simp [next, skip_of_exhausted t h, h]

theorem Nexts.left_lt {t : Table} {previewLength : Option Int} {k : Skipped} {step : Step}
    {token : Token} (h : Nexts t previewLength k step) (htoken : step.result = .ok (some token)) :
    step.scan.left < k.scan.left := by
  cases h with
  | found _ he hl => exact left_consume_lt he (longest_positive hl)
  | _ => cases htoken

theorem next_left_lt {s : Scan} {token : Token}
    (h : (s.next t previewLength).result = .ok (some token)) :
    (s.next t previewLength).scan.left < s.left :=
  Nat.lt_of_lt_of_le ((next_nexts t previewLength s).left_lt h) (skip_skips t s).takes.left_le

/-- How a scan to the end goes: a call after the other, up to one that gives no token. -/
inductive Runs : Scan → Run → Prop
  | stop {s e} : (s.next t previewLength).result = .error e →
      Runs s { scan := (s.next t previewLength).scan
               records := (s.next t previewLength).records
               stop := some e.ofIteration }
  | finish {s} : (s.next t previewLength).result = .ok none →
      Runs s { scan := (s.next t previewLength).scan
               records := (s.next t previewLength).records }
  | token {s token rest} : (s.next t previewLength).result = .ok (some token) →
      Runs (s.next t previewLength).scan rest →
      Runs s { rest with
               records := (s.next t previewLength).records ++ rest.records
               tokens := token :: rest.tokens }

theorem runFrom_runs (left : Nat) (s : Scan) (h : s.left ≤ left) :
    Runs t previewLength s (runFrom t previewLength left s) := by
  induction left generalizing s with
  | zero =>
    have he : s.exhausted = true := by
      simp only [Scan.left] at h
      exact exhausted_iff.mpr (by omega)
    have hnext := next_of_exhausted t previewLength he
    have hruns : Runs t previewLength s _ := .finish (by rw [hnext])
    rwa [hnext] at hruns
  | succ left ih =>
    rw [runFrom]
    cases hr : (s.next t previewLength).result with
    | error e => exact .stop hr
    | ok found =>
      cases found with
      | none => exact .finish hr
      | some token =>
        have hlt := next_left_lt t previewLength hr
        exact .token hr (ih _ (by omega))

theorem run_runs (s : Scan) : Runs t previewLength s (s.run t previewLength) :=
  runFrom_runs t previewLength s.left s (Nat.le_refl _)

namespace Runs
variable {t : Table} {previewLength : Option Int} {s : Scan} {run : Run}

/-- The tokens of a scan to the end are what the calls give. -/
theorem tokens_eq (h : Runs t previewLength s run) (i : Nat) (token : Token)
    (hi : run.tokens[i]? = some token) :
    ((s.calls t previewLength i).scan.next t previewLength).result = .ok (some token) := by
  induction h generalizing i with
  | stop _ => simp at hi
  | finish _ => simp at hi
  | token hr _ ih =>
    cases i with
    | zero =>
      cases Option.some.inj hi
      exact hr
    | succ i =>
      rw [calls_succ]
      exact ih i hi

/-- A token of a scan to the end is what one of the calls gives. -/
theorem call_of_mem (h : Runs t previewLength s run) {token : Token} (htoken : token ∈ run.tokens) :
    ∃ i, ((s.calls t previewLength i).scan.next t previewLength).result = .ok (some token) := by
  obtain ⟨i, hi⟩ := List.mem_iff_getElem?.mp htoken
  exact ⟨i, h.tokens_eq i token hi⟩

/-- What ends a scan to the end is the result of the call after its tokens: an error, which the
iteration passes on, or the end of the text. -/
theorem result_of_stop (h : Runs t previewLength s run) :
    let last := ((s.calls t previewLength run.tokens.length).scan.next t previewLength).result
    (∀ e, run.stop = some e → ∃ e', last = .error e' ∧ e = e'.ofIteration) ∧
      (run.stop = none → last = .ok none) := by
  induction h with
  | stop hr => exact ⟨fun e he => ⟨_, hr, (Option.some.inj he).symm⟩, nofun⟩
  | finish hr => exact ⟨nofun, fun _ => hr⟩
  | token _ _ ih =>
    rw [List.length_cons, calls_succ]
    exact ih

end Runs

end Scan
end Munch
