import Munch.Proofs.Scan.Calls

/-! Scans over two tables.

Skipping asks for nothing but what is ignored (`skip_congr`). If two tables ignore the
same, their calls of `next` and their scans to the end differ by what they take and by
nothing else: where they take the same the scans are the same (`next_congr`,
`calls_congr`, `run_congr`), and where they take the same text, under whatever name,
the scans are alike (`next_alike`, `calls_scan_eq`, `run_alike`). -/
namespace Munch
variable [Engine]

namespace Scan
variable {t t' : Table} {previewLength : Option Int}

theorem skipFrom_congr (h : t'.ignored = t.ignored) (left : Nat) (s : Scan) :
    skipFrom t' left s = skipFrom t left s := by
  induction left generalizing s with
  | zero => rfl
  | succ left ih => simp only [skipFrom, Table.ignoredLength, h, ih]

theorem skip_congr (h : t'.ignored = t.ignored) (s : Scan) : s.skip t' = s.skip t :=
  skipFrom_congr h s.left s

/-! ### The same -/

section Same

theorem next_congr (hignored : t'.ignored = t.ignored)
    (htake : ∀ s : Scan, s.take t' previewLength = s.take t previewLength) (s : Scan) :
    s.next t' previewLength = s.next t previewLength := by
  simp only [next, skip_congr hignored, htake]

variable (hignored : t'.ignored = t.ignored)
  (hnext : ∀ s : Scan, s.next t' previewLength = s.next t previewLength)
include hnext

theorem runFrom_congr (left : Nat) (s : Scan) :
    runFrom t' previewLength left s = runFrom t previewLength left s := by
  induction left generalizing s with
  | zero => rfl
  | succ left ih => simp only [runFrom, hnext, ih]

theorem run_congr (s : Scan) : s.run t' previewLength = s.run t previewLength :=
  runFrom_congr hnext s.left s

include hignored

theorem calls_congr (s : Scan) (n : Nat) :
    s.calls t' previewLength n = s.calls t previewLength n := by
  induction n with
  | zero => rfl
  | succ n ih => simp only [calls, pieces, ih, skip_congr hignored, hnext]

end Same

end Scan

/-! ### The same but for the names -/

/-- The text and the place of a token, whatever it is called. -/
def Token.spot (t : Token) : Text × Int × Int := (t.value, t.line, t.column)

namespace Scan
variable {t t' : Table} {previewLength : Option Int}

/-- Two results of calls that differ at most in what their token is called. -/
inductive SameSpot : Except Error (Option Token) → Except Error (Option Token) → Prop
  | error {e} : SameSpot (.error e) (.error e)
  | finish : SameSpot (.ok none) (.ok none)
  | token {token token' : Token} : token'.spot = token.spot →
      SameSpot (.ok (some token)) (.ok (some token'))

/-- Two steps that differ at most in what their token is called, and in what is on
record. -/
structure Step.Alike (a b : Step) : Prop where
  scan : b.scan = a.scan
  result : SameSpot a.result b.result

/-- Two scans to the end that differ at most in what their tokens are called, and in
what is on record. -/
structure Run.Alike (a b : Run) : Prop where
  scan : b.scan = a.scan
  tokens : b.tokens.map Token.spot = a.tokens.map Token.spot
  stop : b.stop = a.stop

theorem next_alike (hignored : t'.ignored = t.ignored) (s : Scan)
    (htake : (s.skip t).scan.exhausted = false →
      Step.Alike ((s.skip t).scan.take t previewLength) ((s.skip t).scan.take t' previewLength)) :
    Step.Alike (s.next t previewLength) (s.next t' previewLength) := by
  rw [next, next, skip_congr hignored]
  cases (s.skip t).failure with
  | some f => exact ⟨rfl, .error⟩
  | none =>
    by_cases he : (s.skip t).scan.exhausted = true
    · simp only [if_pos he]
      exact ⟨rfl, .finish⟩
    · simp only [if_neg he]
      have halike := htake (by simpa using he)
      exact ⟨halike.scan, halike.result⟩

section Alike
variable {text : Text} (hnext : ∀ s : Scan, s.input = text →
  Step.Alike (s.next t previewLength) (s.next t' previewLength))
include hnext

theorem calls_scan_eq {s : Scan} (hs : s.input = text) (n : Nat) :
    (s.calls t' previewLength n).scan = (s.calls t previewLength n).scan := by
  induction n with
  | zero => rfl
  | succ n ih =>
    have hinput : (s.calls t previewLength n).scan.input = text := (calls_input ..).trans hs
    simp only [calls, ih]
    exact (hnext _ hinput).scan

theorem runFrom_alike (left : Nat) {s : Scan} (hs : s.input = text) :
    Run.Alike (runFrom t previewLength left s) (runFrom t' previewLength left s) := by
  induction left generalizing s with
  | zero => exact ⟨rfl, rfl, rfl⟩
  | succ left ih =>
    obtain ⟨hscan, hresult⟩ := hnext s hs
    have hinput : (s.next t previewLength).scan.input = text :=
      (calls_input t previewLength s 1).trans hs
    simp only [runFrom, hscan]
    generalize (s.next t previewLength).result = result at hresult ⊢
    generalize (s.next t' previewLength).result = result' at hresult ⊢
    cases hresult with
    | error => exact ⟨rfl, rfl, rfl⟩
    | finish => exact ⟨rfl, rfl, rfl⟩
    | token hspot =>
      have hrest := ih hinput
      refine ⟨hrest.scan, ?_, hrest.stop⟩
      rw [List.map_cons, List.map_cons, hspot, hrest.tokens]

theorem run_alike {s : Scan} (hs : s.input = text) :
    Run.Alike (s.run t previewLength) (s.run t' previewLength) :=
  runFrom_alike hnext s.left hs

end Alike

end Scan
end Munch
