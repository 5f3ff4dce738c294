import Munch.Proofs.Lexing
import Munch.Proofs.Scanner.Running
import Munch.Proofs.Table.BuiltIn

/-! Scans are scanners that go forward.

Every scan is a scanner (`Scan.scanner`). Where no length to be ignored is negative
(`Table.Ahead`), the scanner always comes to something, and to what the scan comes to
(`scanner_skip`, `scanner_next`, `scanner_run`). So what is proved of scans is true of
scanners, as long as nothing takes them back. -/
namespace Munch

/-! ### Places from the beginning -/

namespace Text

theorem index_natCast (text : Text) (n : Nat) : text.index n = n := by
  rw [index, if_neg (by omega), Int.toNat_natCast]

theorem between_natCast (text : Text) (start n : Nat) :
    text.between start (start + n) = (text.drop start).take n := by
  have hstop : text.index (start + n) = start + n := index_natCast text (start + n)
  rw [between, hstop, index_natCast, List.take_drop]

theorem between_zero (text : Text) (length : Int) :
    text.between 0 length = text.slice (some length) := by
  rw [between, show text.index 0 = 0 from index_natCast text 0, List.drop_zero, slice, index]
  by_cases hlength : 0 ≤ length
  · rw [if_neg (by omega), if_pos hlength]
  · rw [if_pos (by omega), if_neg hlength, Int.add_comm]

end Text

namespace Scan

/-! ### Scans as scanners -/

/-- The scanner that is where a scan is. -/
def scanner (s : Scan) : Scanner := ⟨s.input, s.cursor, s.position⟩

def Skipped.scanner (k : Skipped) : Scanner.Skipped := ⟨k.scan.scanner, k.pieces, k.failure⟩

def Step.scanner (step : Step) : Scanner.Step := ⟨step.scan.scanner, step.records, step.result⟩

def Run.scanner (run : Run) : Scanner.Run :=
  ⟨run.scan.scanner, run.records, run.tokens, run.stop⟩

@[simp] theorem scanner_start (text : Text) : (start text).scanner = .start text := rfl

@[simp] theorem scanner_input (s : Scan) : s.scanner.input = s.input := rfl

@[simp] theorem scanner_cursor (s : Scan) : s.scanner.cursor = s.cursor := rfl

@[simp] theorem scanner_position (s : Scan) : s.scanner.position = s.position := rfl

@[simp] theorem scanner_exhausted (s : Scan) : s.scanner.exhausted = s.exhausted := by
  simp [Scanner.exhausted, exhausted]

theorem scanner_remaining (s : Scan) : s.scanner.remaining = s.remaining := by
  rw [Scanner.remaining, scanner_cursor, Text.index_natCast]
  rfl

@[simp] theorem scanner_piece (s : Scan) (n : Nat) : s.scanner.piece n = s.piece n :=
  Text.between_natCast s.input s.cursor n

@[simp] theorem scanner_consume (s : Scan) (n : Nat) :
    s.scanner.consume n = (s.consume n).scanner := by
  rw [Scanner.consume, scanner_piece]
  rfl

@[simp] theorem scanner_preview (s : Scan) (length : Option Int) :
    s.scanner.preview length = s.preview length := by
  cases length with
  | none => exact s.scanner_remaining
  | some n => rw [Scanner.preview, Text.between_zero, scanner_remaining, preview_eq]

theorem scanner_inj {s s' : Scan} : s.scanner = s'.scanner ↔ s = s' := by
  cases s
  cases s'
  rw [scanner, scanner, Scanner.mk.injEq, Int.ofNat_inj, mk.injEq]

end Scan

/-! ### Tables that take nothing back -/

variable [Engine]

/-- Where there are characters of the text left, no length that the table ignores is negative. -/
def Table.Ahead (t : Table) (text : Text) : Prop :=
  ∀ (pos : Nat) (n : Int), pos < text.length → t.ignoredLength text pos = .ok n → 0 ≤ n

/-- No pattern that is ignored is to give a negative length. -/
theorem Table.ahead_of_ignored {t : Table} {text : Text}
    (h : ∀ p ∈ t.ignored, ∀ (pos : Nat) (n : Int), pos < text.length →
      p.check text pos = .ok (some n) → 0 ≤ n) : t.Ahead text := by
  intro pos n hpos hn
  by_cases hzero : n = 0
  · omega
  · obtain ⟨i, p, hp, hcheck, -⟩ := first_of_ignoredLength hn hzero
    exact h p (List.mem_of_getElem? hp) pos n hpos hcheck

/-- Regular expressions and literals give no negative length. -/
theorem Table.ahead_of_builtIn {t : Table} (h : ∀ p ∈ t.ignored, p.BuiltIn) (text : Text) :
    t.Ahead text := by
  refine ahead_of_ignored fun p hp pos n hpos hcheck => ?_
  exact ((h p hp).bounded text pos n (Nat.le_of_lt hpos) hcheck).1

/-- A registration of a built-in pattern adds no negative length. -/
theorem Table.Registers.ahead {t t' : Table} {r : Registration} {record : Record} {text : Text}
    (h : Registers t r t' record) (hr : r.BuiltIn) (ht : t.Ahead text) : t'.Ahead text := by
  cases h with
  | rule _ _ | keyword _ _ _ _ => exact ht
  | @ignore spec p hp =>
    intro pos n hpos hn
    rcases of_firstLength_append hn with ⟨hbefore, -⟩ | ⟨-, hlast⟩
    · exact ht pos n hpos hbefore
    · have hp : p.BuiltIn := PatternSpec.BuiltIn.compile hr hp
      exact ahead_of_builtIn (t := { ignored := [p] }) (List.forall_mem_singleton.mpr hp) text
        pos n hpos hlast

/-- A table that is extended gives no length that the longer one does not give. -/
theorem Table.Ahead.of_extends {t t' : Table} {text : Text} (h : t'.Ahead text)
    (hextends : t'.Extends t) : t.Ahead text := by
  obtain ⟨more, hmore⟩ := hextends.ignored
  intro pos n hpos hn
  by_cases hzero : n = 0
  · omega
  · refine h pos n hpos ?_
    rw [ignoredLength] at hn ⊢
    rw [← hmore, firstLength_append, hn, Except.bind, if_neg hzero]

namespace Scan

/-! ### What they come to -/

variable {t : Table} {previewLength : Option Int} {s : Scan} {k : Skipped} {run : Run}

theorem Skips.scanner (h : Skips t s k) (hahead : t.Ahead s.input) :
    Scanner.Skips t s.scanner k.scanner := by
  induction h with
  | @finish s he => exact .finish (s.scanner_exhausted.trans he)
  | @failure s f he hi => exact .failure (s.scanner_exhausted.trans he) hi
  | @rest s n he hi hn =>
    obtain rfl := Int.le_antisymm hn (hahead _ n (not_exhausted_iff.mp he) hi)
    exact .rest (s.scanner_exhausted.trans he) hi
  | @piece s n k he hi hn _ ih =>
    obtain ⟨n, rfl⟩ := Int.eq_ofNat_of_zero_le (Int.le_of_lt hn)
    have hrest := ih hahead
    simp only [Int.toNat_natCast] at hrest
    rw [← scanner_consume] at hrest
    have hskips := Scanner.Skips.piece (s.scanner_exhausted.trans he) hi (Int.ne_of_gt hn) hrest
    rwa [scanner_piece] at hskips

theorem scanner_take (t : Table) (previewLength : Option Int) (s : Scan) :
    s.scanner.take t previewLength = (s.take t previewLength).scanner := by
  simp only [Scanner.take, take, scanner_input, scanner_cursor]
  cases t.longest s.input s.cursor with
  | error f => rfl
  | ok winner =>
    cases winner with
    | none => simp [Step.scanner]
    | some winner => simp [Step.scanner]

theorem Skipped.scanner_next (k : Skipped) :
    k.scanner.next t previewLength =
      (match k.failure with
        | some f => (⟨k.scan, k.records, .error (.failure f)⟩ : Step)
        | none =>
          if k.scan.exhausted then ⟨k.scan, k.records, .ok none⟩
          else
            let taken := k.scan.take t previewLength
            { taken with records := k.records ++ taken.records }).scanner := by
  obtain ⟨s, pieces, failure⟩ := k
  cases failure with
  | some f => rfl
  | none =>
    simp only [Scanner.Skipped.next, Skipped.scanner, scanner_exhausted, scanner_take]
    cases s.exhausted <;> rfl

section Ahead
variable (hahead : t.Ahead s.input)
include hahead

theorem scanner_skip : s.scanner.skip t = some (s.skip t).scanner :=
  ((skip_skips t s).scanner hahead).skip_eq

/-- **A call comes to the same** for a scan and for its scanner. -/
theorem scanner_next : s.scanner.next t previewLength = some (s.next t previewLength).scanner := by
  rw [Scanner.next, scanner_skip hahead, Option.map_some, Skipped.scanner_next]
  rfl

end Ahead

theorem Runs.scanner (h : Runs t previewLength s run) (hahead : t.Ahead s.input) :
    Scanner.Runs t previewLength s.scanner run.scanner := by
  induction h with
  | stop hr => exact .stop (scanner_next hahead) hr
  | finish hr => exact .finish (scanner_next hahead) hr
  | @token s token rest hr _ ih =>
    obtain ⟨_, htakes⟩ := next_takes t previewLength s
    exact .token (scanner_next hahead) hr (ih (htakes.input_eq ▸ hahead))

/-- **A scan to the end comes to the same** as that of its scanner. -/
theorem scanner_run (hahead : t.Ahead s.input) :
    s.scanner.run t previewLength = some (s.run t previewLength).scanner :=
  ((run_runs t previewLength s).scanner hahead).run_eq

end Scan
end Munch
