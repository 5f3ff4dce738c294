import Munch.Proofs.Scan.Comparing
import Munch.Proofs.Scan.Ending

/-! Scans that find the same tokens under other names.

Two tables may take the same text everywhere and still call some of it differently. Given
what becomes of each token, a call over the one table comes to what a call over the other
comes to, with its tokens changed (`next_mapToken`). Calls and scans to the end follow the
calls that were made: it is enough that these agree, whatever the tables may do at other
places (`calls_mapToken`, `run_mapToken`). -/
namespace Munch

/-- A record whose token, if it is of one, is changed. -/
def Record.mapToken (f : Token → Token) : Record → Record
  | .token t => .token (f t)
  | r => r

/-- A piece whose token, if it is one, is changed. -/
def Piece.mapToken (f : Token → Token) : Piece → Piece
  | .ignored text => .ignored text
  | .token t => .token (f t)

theorem Record.mapToken_id (r : Record) : r.mapToken id = r := by
  cases r <;> rfl

theorem Piece.mapToken_id (p : Piece) : p.mapToken id = p := by
  cases p <;> rfl

namespace Scan

def Step.mapToken (f : Token → Token) (step : Step) : Step :=
  { step with
    records := step.records.map (Record.mapToken f)
    result := step.result.map (Option.map f) }

def History.mapToken (f : Token → Token) (h : History) : History :=
  { h with pieces := h.pieces.map (Piece.mapToken f), records := h.records.map (Record.mapToken f) }

def Run.mapToken (f : Token → Token) (run : Run) : Run :=
  { run with records := run.records.map (Record.mapToken f), tokens := run.tokens.map f }

@[simp] theorem Step.mapToken_id (step : Step) : step.mapToken id = step := by
  obtain ⟨scan, records, result⟩ := step
  match result with
  | .error _ | .ok none | .ok (some _) => simp [mapToken, funext Record.mapToken_id, Except.map]

@[simp] theorem History.mapToken_id (h : History) : h.mapToken id = h := by
  simp [mapToken, funext Piece.mapToken_id, funext Record.mapToken_id]

@[simp] theorem Run.mapToken_id (run : Run) : run.mapToken id = run := by
  simp [mapToken, funext Record.mapToken_id]

theorem Step.tokens_mapToken (f : Token → Token) (step : Step) :
    (step.mapToken f).tokens = step.tokens.map f := by
  obtain ⟨scan, records, result⟩ := step
  match result with
  | .error _ | .ok none | .ok (some _) => rfl

/-- What is ignored has no token. -/
theorem ignored_mapToken (f : Token → Token) (pieces : List Text) :
    pieces.map Record.ignored =
      (pieces.map Record.ignored).map (Record.mapToken f) := by
  rw [List.map_map]
  rfl

/-! ### One call -/

variable [Engine]

section Next
variable {t t' : Table} {previewLength : Option Int} {f : Token → Token}

theorem take_mapToken {s : Scan}
    (hlongest : t'.longest s.input s.cursor = t.longest s.input s.cursor)
    (htoken : ∀ r n, t.longest s.input s.cursor = .ok (some (r, n)) →
      s.tokenOf t' r n = f (s.tokenOf t r n)) :
    s.take t' previewLength = (s.take t previewLength).mapToken f := by
  rw [take, take, hlongest]
  cases hl : t.longest s.input s.cursor with
  | error g => rfl
  | ok winner =>
    cases winner with
    | none => rfl
    | some won =>
      have hname := htoken won.1 won.2 hl
      simp only [tokenOf] at hname
      simp [Step.mapToken, Record.mapToken, Except.map, hname]

theorem next_mapToken (hignored : t'.ignored = t.ignored) {s : Scan}
    (htake : (s.skip t).failure = none → (s.skip t).scan.exhausted = false →
      (s.skip t).scan.take t' previewLength = ((s.skip t).scan.take t previewLength).mapToken f) :
    s.next t' previewLength = (s.next t previewLength).mapToken f := by
  have hrecords := ignored_mapToken f (s.skip t).pieces
  rw [next, next, skip_congr hignored]
  cases hfailure : (s.skip t).failure with
  | some g => exact congrArg (Step.mk _ · _) hrecords
  | none =>
    by_cases he : (s.skip t).scan.exhausted = true
    · simp only [if_pos he]
      exact congrArg (Step.mk _ · _) hrecords
    · simp only [if_neg he, htake hfailure (by simpa using he)]
      simp only [Step.mapToken, List.map_append, ← hrecords]

end Next

/-! ### The calls that are made -/

section Calls
variable {t t' : Table} {previewLength : Option Int} {f : Token → Token}

/-- The first `n` calls come to the same over both tables, but for their tokens. -/
def Agrees (t t' : Table) (previewLength : Option Int) (f : Token → Token) (s : Scan) (n : Nat) :
    Prop :=
  ∀ i < n, let before := (s.calls t previewLength i).scan
    before.next t' previewLength = (before.next t previewLength).mapToken f

theorem Agrees.next {s : Scan} {n : Nat} (h : Agrees t t' previewLength f s (n + 1)) :
    s.next t' previewLength = (s.next t previewLength).mapToken f :=
  h 0 (Nat.succ_pos n)

theorem Agrees.tail {s : Scan} {n : Nat} (h : Agrees t t' previewLength f s (n + 1)) :
    Agrees t t' previewLength f (s.next t previewLength).scan n := by
  intro i hi
  have hnext := h (i + 1) (Nat.succ_lt_succ hi)
  rwa [calls_succ] at hnext

theorem Agrees.mono {s : Scan} {n m : Nat} (h : Agrees t t' previewLength f s n) (hm : m ≤ n) :
    Agrees t t' previewLength f s m := fun i hi => h i (Nat.lt_of_lt_of_le hi hm)

theorem pieces_mapToken (hignored : t'.ignored = t.ignored) {s : Scan}
    (hnext : s.next t' previewLength = (s.next t previewLength).mapToken f) :
    s.pieces t' previewLength = (s.pieces t previewLength).map (Piece.mapToken f) := by
  simp only [pieces, skip_congr hignored, hnext, Step.tokens_mapToken, List.map_append,
    List.map_map]
  rfl

theorem calls_mapToken (hignored : t'.ignored = t.ignored) {s : Scan} {n : Nat}
    (h : Agrees t t' previewLength f s n) :
    s.calls t' previewLength n = (s.calls t previewLength n).mapToken f := by
  induction n with
  | zero => rfl
  | succ n ih =>
    have hbefore := ih (h.mono (Nat.le_succ n))
    have hnext := h n (Nat.lt_succ_self n)
    have hscan : (s.calls t' previewLength n).scan = (s.calls t previewLength n).scan := by
      rw [hbefore]
      rfl
    simp only [calls, hscan, pieces_mapToken hignored hnext]
    rw [hnext, hbefore]
    simp [History.mapToken, Step.mapToken]

theorem result_mapToken {s : Scan}
    (hnext : s.next t' previewLength = (s.next t previewLength).mapToken f)
    {result : Except Error (Option Token)} (hr : (s.next t previewLength).result = result) :
    (s.next t' previewLength).result = result.map (Option.map f) := by
  rw [hnext, ← hr]
  rfl

theorem Runs.mapToken {s : Scan} {run : Run} (h : Runs t previewLength s run)
    (hagrees : Agrees t t' previewLength f s (run.tokens.length + 1)) :
    Runs t' previewLength s (run.mapToken f) := by
  induction h with
  | stop hr =>
    have hnext := hagrees.next
    have hruns := Runs.stop (result_mapToken hnext hr)
    rwa [hnext] at hruns
  | finish hr =>
    have hnext := hagrees.next
    have hruns := Runs.finish (result_mapToken hnext hr)
    rwa [hnext] at hruns
  | @token s token rest hr _ ih =>
    have hnext := hagrees.next
    have hrest : Runs t' previewLength (s.next t' previewLength).scan (rest.mapToken f) := by
      rw [hnext]
      exact ih hagrees.tail
    have hruns := Runs.token (result_mapToken hnext hr) hrest
    rw [hnext] at hruns
    simpa [Run.mapToken, Step.mapToken] using hruns

theorem run_mapToken {s : Scan}
    (h : Agrees t t' previewLength f s ((s.run t previewLength).tokens.length + 1)) :
    s.run t' previewLength = (s.run t previewLength).mapToken f :=
  (run_runs t' previewLength s).unique ((run_runs t previewLength s).mapToken h)

end Calls

end Scan
end Munch
