import Munch.Proofs.Table.Matching
import Munch.Scan

/-! What scanning takes.

A scan moves by taking pieces of the text that have a character at least
(`Takes`). Whatever is so for a scan that takes pieces is so for skipping, for the
next token, and for any number of tokens. What a call of `next` may do besides is
said once, in `Nexts`: it may be stopped by a pattern to ignore, find the end, be
stopped by a rule, find no rule, or find a token. -/
namespace Munch.Scan

/-! ### Taking pieces -/

@[simp] theorem consume_input (s : Scan) (n : Nat) : (s.consume n).input = s.input := rfl

@[simp] theorem consume_cursor (s : Scan) (n : Nat) : (s.consume n).cursor = s.cursor + n := rfl

@[simp] theorem consume_position (s : Scan) (n : Nat) :
    (s.consume n).position = s.position.advance (s.piece n) := rfl

theorem exhausted_iff {s : Scan} : s.exhausted = true ↔ s.input.length ≤ s.cursor := by
  simp [exhausted]

theorem not_exhausted_iff {s : Scan} : s.exhausted = false ↔ s.cursor < s.input.length := by
  simp [exhausted]

/-- The text that is left behind: everything before the cursor. -/
def taken (s : Scan) : Text := s.input.take s.cursor

theorem taken_consume (s : Scan) (n : Nat) : (s.consume n).taken = s.taken ++ s.piece n := by
  simp only [taken, consume_input, consume_cursor, piece, remaining]
  rw [List.take_add]

theorem piece_ne_nil {s : Scan} {n : Nat} (h : s.exhausted = false) (hn : 0 < n) :
    s.piece n ≠ [] := by
  have hc := not_exhausted_iff.mp h
  intro hnil
  have hlength := congrArg List.length hnil
  simp only [piece, remaining, List.length_take, List.length_drop, List.length_nil] at hlength
  omega

/-- A scan takes pieces one after the other, each while there are characters. -/
inductive Takes : Scan → List Text → Scan → Prop
  | nil {s} : Takes s [] s
  | cons {s : Scan} {n pieces s'} : s.exhausted = false → 0 < n →
      Takes (s.consume n) pieces s' → Takes s (s.piece n :: pieces) s'

namespace Takes
variable {s s' s'' : Scan} {ps qs : List Text}

theorem append (h : Takes s ps s') (h' : Takes s' qs s'') : Takes s (ps ++ qs) s'' := by
  induction h with
  | nil => exact h'
  | cons he hn _ ih => exact .cons he hn (ih h')

theorem single {n : Nat} (h : s.exhausted = false) (hn : 0 < n) :
    Takes s [s.piece n] (s.consume n) := .cons h hn .nil

theorem input_eq (h : Takes s ps s') : s'.input = s.input := by
  induction h with
  | nil => rfl
  | cons _ _ _ ih => exact ih

theorem ne_nil (h : Takes s ps s') : ∀ p ∈ ps, p ≠ [] := by
  induction h with
  | nil => simp
  | cons he hn _ ih => exact List.forall_mem_cons.mpr ⟨piece_ne_nil he hn, ih⟩

/-- The pieces make up the text between the two cursors. -/
theorem taken_eq (h : Takes s ps s') : s'.taken = s.taken ++ ps.flatten := by
  induction h with
  | nil => simp
  | cons _ _ _ ih => rw [ih, taken_consume, List.flatten_cons, List.append_assoc]

/-- Every piece has a character. -/
theorem left_add_length_le (h : Takes s ps s') : s'.left + ps.length ≤ s.left := by
  induction h with
  | nil => exact Nat.le_refl _
  | cons he hn _ ih =>
    have hlt := left_consume_lt he hn
    rw [List.length_cons]
    omega

theorem left_le (h : Takes s ps s') : s'.left ≤ s.left :=
  Nat.le_trans (Nat.le_add_right _ _) h.left_add_length_le

/-- What holds of a scan, however much it takes, holds after pieces. -/
theorem preserves {P : Scan → Prop} (hP : ∀ s n, P s → P (s.consume n)) (h : Takes s ps s')
    (hs : P s) : P s' := by
  induction h with
  | nil => exact hs
  | cons _ _ _ ih => exact ih (hP _ _ hs)

end Takes

/-! ### Skipping -/

variable [Engine]

/-- How skipping goes: piece by piece, up to the end of the text, to a pattern that
fails, or to a place where nothing is to be ignored. -/
inductive Skips (t : Table) : Scan → Skipped → Prop
  | finish {s} : s.exhausted = true → Skips t s { scan := s }
  | failure {s f} : s.exhausted = false → t.ignoredLength s.input s.cursor = .error f →
      Skips t s { scan := s, failure := some f }
  | rest {s n} : s.exhausted = false → t.ignoredLength s.input s.cursor = .ok n → n ≤ 0 →
      Skips t s { scan := s }
  | piece {s n k} : s.exhausted = false → t.ignoredLength s.input s.cursor = .ok n → 0 < n →
      Skips t (s.consume n.toNat) k →
      Skips t s { k with pieces := s.piece n.toNat :: k.pieces }

theorem skipFrom_skips (t : Table) (left : Nat) (s : Scan) (h : s.left ≤ left) :
    Skips t s (skipFrom t left s) := by
  induction left generalizing s with
  | zero =>
    refine .finish (exhausted_iff.mpr ?_)
    simp only [Scan.left] at h
    omega
  | succ left ih =>
    rw [skipFrom]
    by_cases he : s.exhausted = true
    · rw [if_pos he]
      exact .finish he
    · rw [if_neg he]
      have he' : s.exhausted = false := by simpa using he
      cases hi : t.ignoredLength s.input s.cursor with
      | error f => exact .failure he' hi
      | ok n =>
        by_cases hn : n ≤ 0
        · simp only [if_pos hn]
          exact .rest he' hi hn
        · simp only [if_neg hn]
          have hlt : (s.consume n.toNat).left < s.left := left_consume_lt he' (by omega)
          exact .piece he' hi (by omega) (ih _ (by omega))

theorem skip_skips (t : Table) (s : Scan) : Skips t s (s.skip t) :=
  skipFrom_skips t s.left s (Nat.le_refl _)

theorem Skips.takes {t : Table} {s : Scan} {k : Skipped} (h : Skips t s k) :
    Takes s k.pieces k.scan := by
  induction h with
  | finish _ => exact .nil
  | failure _ _ => exact .nil
  | rest _ _ _ => exact .nil
  | piece he _ hn _ ih => exact .cons he (by omega) ih

/-! ### The next token -/

def Skipped.records (k : Skipped) : List Record :=
  k.pieces.map Record.ignored

/-- The token for a piece that a rule matched at the scan. -/
def tokenOf (t : Table) (s : Scan) (r : Rule) (length : Nat) : Token :=
  let label := t.relabel r (s.piece length)
  ⟨label.1, label.2, s.position.line, s.position.column⟩

/-- What a call of `next` may come to, after skipping. -/
inductive Nexts (t : Table) (previewLength : Option Int) (k : Skipped) : Step → Prop
  | ignoreFails {f} : k.failure = some f →
      Nexts t previewLength k ⟨k.scan, k.records, .error (.failure f)⟩
  | finish : k.failure = none → k.scan.exhausted = true →
      Nexts t previewLength k ⟨k.scan, k.records, .ok none⟩
  | ruleFails {f} : k.failure = none → k.scan.exhausted = false →
      t.longest k.scan.input k.scan.cursor = .error f →
      Nexts t previewLength k ⟨k.scan, k.records, .error (.failure f)⟩
  | unmatched : k.failure = none → k.scan.exhausted = false →
      t.longest k.scan.input k.scan.cursor = .ok none →
      Nexts t previewLength k ⟨k.scan, k.records,
        .error (.unmatched (k.scan.preview previewLength) k.scan.position)⟩
  | found {r n} : k.failure = none → k.scan.exhausted = false →
      t.longest k.scan.input k.scan.cursor = .ok (some (r, n)) →
      Nexts t previewLength k ⟨k.scan.consume n, k.records ++ [.token (k.scan.tokenOf t r n)],
        .ok (some (k.scan.tokenOf t r n))⟩

theorem next_nexts (t : Table) (previewLength : Option Int) (s : Scan) :
    Nexts t previewLength (s.skip t) (s.next t previewLength) := by
  rw [next]
  cases hf : (s.skip t).failure with
  | some f => exact .ignoreFails hf
  | none =>
    by_cases he : (s.skip t).scan.exhausted = true
    · simp only [if_pos he]
      exact .finish hf he
    · simp only [if_neg he]
      have he' : (s.skip t).scan.exhausted = false := by simpa using he
      rw [take]
      cases hl : t.longest (s.skip t).scan.input (s.skip t).scan.cursor with
      | error f =>
        simp only [List.append_nil]
        exact .ruleFails hf he' hl
      | ok winner =>
        cases winner with
        | none =>
          simp only [List.append_nil]
          exact .unmatched hf he' hl
        | some winner => exact .found hf he' hl

end Munch.Scan
