import Munch.Proofs.Scan.Calls
import Munch.Proofs.Text.Position

/-! Positions that are carried along.

A scan moves its position over one piece of text after the other. `Placed` says that
the position is the one that counting from the beginning of the text gives, and it
is kept by whatever a scan takes. So what a call finds is where it says
(`calls_beginsAt`). -/
namespace Munch.Scan

/-- The position is the one of the text that was taken. -/
def Placed (s : Scan) : Prop := s.position = Position.ofText s.taken

theorem Placed.position_eq {s : Scan} (h : s.Placed) :
    s.position = Position.ofText (s.input.take s.cursor) := h

theorem start_placed (text : Text) : (start text).Placed := Position.ofText_nil.symm

theorem consume_placed (s : Scan) (n : Nat) (h : s.Placed) : (s.consume n).Placed := by
  rw [Placed, consume_position, h, Position.ofText_append, taken_consume]

theorem Takes.placed {s s' : Scan} {ps : List Text} (h : Takes s ps s') (hs : s.Placed) :
    s'.Placed := h.preserves consume_placed hs

variable [Engine]

/-- Where the call after `n` calls looks for a token: behind what it ignores. -/
def offset (t : Table) (previewLength : Option Int) (s : Scan) (n : Nat) : Nat :=
  ((s.calls t previewLength n).scan.skip t).scan.cursor

/-- What a step finds at an offset of a text, be it a token or text that no rule
matches, has the position of the text before the offset. -/
structure Step.BeginsAt (text : Text) (offset : Nat) (step : Step) : Prop where
  position : ∀ token, step.result = .ok (some token) →
    ⟨token.line, token.column⟩ = Position.ofText (text.take offset)
  value : ∀ token, step.result = .ok (some token) → token.value <+: text.drop offset
  place : ∀ preview place, step.result = .error (.unmatched preview place) →
    place = Position.ofText (text.take offset)

theorem Nexts.beginsAt {t : Table} (ht : t.WellFormed) {previewLength : Option Int} {k : Skipped}
    {step : Step} (h : Nexts t previewLength k step) (hk : k.scan.Placed) :
    step.BeginsAt k.scan.input k.scan.cursor := by
  cases h with
  | ignoreFails _ => exact ⟨nofun, nofun, nofun⟩
  | finish _ _ => exact ⟨nofun, nofun, nofun⟩
  | ruleFails _ _ _ => exact ⟨nofun, nofun, nofun⟩
  | unmatched _ _ _ =>
    refine ⟨nofun, nofun, fun preview place hr => ?_⟩
    cases hr
    exact hk
  | @found r n _ _ _ =>
    refine ⟨fun token hr => ?_, fun token hr => ?_, nofun⟩
    · cases hr
      exact hk
    · cases hr
      rw [tokenOf_text ht]
      exact List.take_prefix n _

/-- Whatever a call finds, after any number of calls, has the right position. -/
theorem calls_beginsAt {t : Table} (ht : t.WellFormed) (previewLength : Option Int) {s : Scan}
    (h : s.Placed) (n : Nat) :
    ((s.calls t previewLength n).scan.next t previewLength).BeginsAt s.input
      (s.offset t previewLength n) := by
  have hcalls := calls_takes t previewLength ht s n
  have hskip := (skip_skips t (s.calls t previewLength n).scan).takes
  have htakes := hcalls.append hskip
  have hbegins := (next_nexts t previewLength _).beginsAt ht (htakes.placed h)
  rwa [htakes.input_eq] at hbegins

end Munch.Scan
