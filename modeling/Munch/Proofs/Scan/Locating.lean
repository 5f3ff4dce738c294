import Munch.Proofs.Scan.Positions
import Munch.Proofs.Text.Offset
import Munch.Regex

/-! Positions lead back to the text.

What a call finds, be it a token or text that no rule matches, has a place, and the text
has one offset with this place: the one where the call has found it. Calls that give tokens
move on, so the places of what they find come one after the other, line by line and within
a line by columns (`calls_locate`). -/
namespace Munch

/-- Where a token says that it begins. -/
def Token.place (t : Token) : Position := ⟨t.line, t.column⟩

/-- Where there is text that no rule matches, if this is the error. -/
def Error.place? : Error → Option Position
  | unmatched _ place => some place
  | _ => none

theorem Error.place?_ofIteration (e : Error) : e.ofIteration.place? = e.place? := by
  cases e <;> rfl

namespace Scan

/-- The place of what a step has found: of its token, or of text that no rule matches. -/
def Step.place? (step : Step) : Option Position :=
  match step.result with
  | .ok found => found.map Token.place
  | .error e => e.place?

theorem Step.place_of_token {step : Step} {token : Token}
    (htoken : step.result = .ok (some token)) :
    step.place? = some token.place := by
  unfold place?
  rw [htoken]
  rfl

theorem Takes.cursor_le {s s' : Scan} {ps : List Text} (h : Takes s ps s') :
    s.cursor ≤ s'.cursor := by
  apply h.preserves (P := fun x => s.cursor ≤ x.cursor)
  · intro x n hx
    exact Nat.le_trans hx (Nat.le_add_right x.cursor n)
  · exact Nat.le_refl _

section
variable [Engine]

/-- The places of what a scan to the end finds, in order. -/
def Run.places (run : Run) : List Position :=
  run.tokens.map Token.place ++ (run.stop.bind Error.place?).toList

variable {t : Table} {previewLength : Option Int} {s : Scan} {k : Skipped} {step : Step}

/-! ### Moving on -/

theorem calls_cursor_mono (t : Table) (previewLength : Option Int) (s : Scan) {m n : Nat}
    (h : m ≤ n) :
    (s.calls t previewLength m).scan.cursor ≤ (s.calls t previewLength n).scan.cursor := by
  induction h with
  | refl => exact Nat.le_refl _
  | @step n _ ih =>
    obtain ⟨_, htakes⟩ := next_takes t previewLength (s.calls t previewLength n).scan
    exact Nat.le_trans ih htakes.cursor_le

theorem Nexts.cursor_lt (h : Nexts t previewLength k step) {token : Token}
    (htoken : step.result = .ok (some token)) : k.scan.cursor < step.scan.cursor := by
  cases h with
  | found _ _ hl =>
    show k.scan.cursor < k.scan.cursor + _
    have hpos := longest_positive hl
    omega
  | _ => cases htoken

/-- After a call that gives a token, later ones look for theirs behind it. -/
theorem offset_lt {m n : Nat} (h : m < n) {token : Token}
    (htoken : ((s.calls t previewLength m).scan.next t previewLength).result = .ok (some token)) :
    s.offset t previewLength m < s.offset t previewLength n := by
  have hstep := (next_nexts t previewLength (s.calls t previewLength m).scan).cursor_lt htoken
  have hcalls := calls_cursor_mono t previewLength s (Nat.succ_le_of_lt h)
  have hskip := (skip_skips t (s.calls t previewLength n).scan).takes.cursor_le
  exact Nat.lt_of_lt_of_le hstep (Nat.le_trans hcalls hskip)

/-! ### Places -/

/-- What is found is found before the end of the text, and has the position there. -/
theorem Nexts.place_eq (h : Nexts t previewLength k step) (hk : k.scan.Placed) {place : Position}
    (hplace : step.place? = some place) :
    k.scan.cursor < k.scan.input.length ∧
      place = Position.ofText (k.scan.input.take k.scan.cursor) := by
  cases h with
  | ignoreFails _ | finish _ _ | ruleFails _ _ _ => cases hplace
  | unmatched _ he _ | found _ he _ =>
    cases hplace
    exact ⟨not_exhausted_iff.mp he, hk⟩

theorem call_place (hs : s.Placed) {n : Nat} {place : Position}
    (hplace : ((s.calls t previewLength n).scan.next t previewLength).place? = some place) :
    s.offset t previewLength n < s.input.length ∧
      place = Position.ofText (s.input.take (s.offset t previewLength n)) := by
  have hbefore := calls_preserves t previewLength consume_placed hs n
  have hskip := (skip_skips t (s.calls t previewLength n).scan).takes
  have hinput : ((s.calls t previewLength n).scan.skip t).scan.input = s.input :=
    hskip.input_eq.trans (calls_input t previewLength s n)
  have hfound := (next_nexts t previewLength _).place_eq (hskip.placed hbefore) hplace
  rwa [hinput] at hfound

/-- What is found later has a later place. -/
theorem call_place_precedes (hs : s.Placed) {m n : Nat} (h : m < n) {token : Token}
    {place : Position}
    (htoken : ((s.calls t previewLength m).scan.next t previewLength).result = .ok (some token))
    (hplace : ((s.calls t previewLength n).scan.next t previewLength).place? = some place) :
    token.place.Precedes place := by
  obtain ⟨hbefore, htokenPlace⟩ := call_place hs (Step.place_of_token htoken)
  obtain ⟨-, rfl⟩ := call_place hs hplace
  rw [htokenPlace]
  exact Position.ofText_precedes (offset_lt h htoken) hbefore

/-! ### Scans to the end -/

namespace Runs
variable {run : Run}

/-- The places of a scan to the end are those of what the calls find. -/
theorem call_of_places (h : Runs t previewLength s run) {i : Nat} {place : Position}
    (hi : run.places[i]? = some place) :
    ((s.calls t previewLength i).scan.next t previewLength).place? = some place := by
  by_cases hlt : i < run.tokens.length
  · have htoken : run.tokens[i]? = some run.tokens[i] := List.getElem?_eq_getElem hlt
    have hplace : run.tokens[i].place = place := by
      simpa [Run.places, List.getElem?_append, hlt] using hi
    rw [← hplace]
    exact Step.place_of_token (h.tokens_eq i _ htoken)
  · have hplace : (run.stop.bind Error.place?).toList[i - run.tokens.length]? = some place := by
      simpa [Run.places, List.getElem?_append, hlt] using hi
    obtain ⟨e, hstop, he⟩ : ∃ e, run.stop = some e ∧ e.place? = some place := by
      apply Option.bind_eq_some_iff.mp
      exact Option.mem_toList.mp (List.mem_of_getElem? hplace)
    have hlast : i = run.tokens.length := by
      have hlength := (List.getElem?_eq_some_iff.mp hplace).1
      have hone := Option.length_toList_le (o := run.stop.bind Error.place?)
      omega
    obtain ⟨e', hcall, rfl⟩ := h.result_of_stop.1 e hstop
    rw [Error.place?_ofIteration] at he
    unfold Step.place?
    rw [hlast, hcall]
    exact he

theorem places_pairwise (h : Runs t previewLength s run) (hs : s.Placed) :
    run.places.Pairwise Position.Precedes := by
  apply List.pairwise_iff_getElem.mpr
  intro i j hi hj hij
  have hlength : run.places.length ≤ run.tokens.length + 1 := by
    have hone := Option.length_toList_le (o := run.stop.bind Error.place?)
    simp only [Run.places, List.length_append, List.length_map]
    omega
  have hlt : i < run.tokens.length := by omega
  have htoken := h.tokens_eq i _ (List.getElem?_eq_getElem hlt)
  have hplace : run.places[i] = run.tokens[i].place := by
    simp [Run.places, hlt]
  rw [hplace]
  exact call_place_precedes hs hij htoken (h.call_of_places (List.getElem?_eq_getElem hj))

end Runs

/-- **Positions locate** what is found. Counting lines and columns in the text leads from
the place of a token to the offset where the call has found it, and there the text begins
with the token's value. What a later call finds has a later place: the places of the tokens
of a scan to the end, and then that of the text where it got stuck, are in order. -/
theorem calls_locate (registrations : List Registration) (text : Text)
    (previewLength : Option Int) :
    let t := ({} : Table).afterAll registrations
    let scan := start text
    let run := scan.run t previewLength
    let call := fun n => (scan.calls t previewLength n).scan.next t previewLength
    (∀ n token, (call n).result = .ok (some token) →
      token.place.offsetIn text = scan.offset t previewLength n ∧
        token.value <+: text.drop (scan.offset t previewLength n)) ∧
      (∀ m n token place, m < n → (call m).result = .ok (some token) →
        (call n).place? = some place → token.place.Precedes place) ∧
      (∀ i token, run.tokens[i]? = some token → (call i).result = .ok (some token)) ∧
      run.places.Pairwise Position.Precedes := by
  intro t scan run call
  have ht : t.WellFormed := Table.afterAll_wellFormed registrations
  have hplaced : scan.Placed := start_placed text
  have hruns : Runs t previewLength scan run := run_runs t previewLength scan
  refine ⟨fun n token htoken => ?_, fun m n token place hmn htoken hplace => ?_,
    hruns.tokens_eq, hruns.places_pairwise hplaced⟩
  · have hbegins := calls_beginsAt ht previewLength hplaced n
    refine ⟨?_, hbegins.value token htoken⟩
    obtain ⟨hbefore, hposition⟩ := call_place hplaced (Step.place_of_token htoken)
    rw [hposition]
    exact Position.offsetIn_ofText (Nat.le_of_lt hbefore)
  · exact call_place_precedes hplaced hmn htoken hplace

end

attribute [local instance] Regex.plain

/-- A blank is ignored, a rule matches over a newline, and another one newlines. -/
def folds : List Registration :=
  [.ignore (.pattern (.literal " ")), .rule (.string "fold") (.pattern (.literal "a\nb")),
    .rule (.string "end") (.pattern (.literal "\n")), .keyword (.string "if") .null]

/-- The token after the newline of the first one is on the second line, and the mark that
no rule matches is on the third. -/
theorem calls_locate_folds :
    let text : Text := "a\nb if\n?"
    let run := (start text).run (({} : Table).afterAll folds) none
    run.tokens = [⟨"fold", "a\nb", 1, 0⟩, ⟨"if", "if", 2, 2⟩, ⟨"end", "\n", 2, 4⟩] ∧
      run.places = [⟨1, 0⟩, ⟨2, 2⟩, ⟨2, 4⟩, ⟨3, 0⟩] ∧
      (⟨2, 2⟩ : Position).offsetIn text = 4 ∧ ("if" : Text) <+: text.drop 4 ∧
      run.places.Pairwise Position.Precedes := by
  intro text run
  have htokens : run.tokens =
      [⟨"fold", "a\nb", 1, 0⟩, ⟨"if", "if", 2, 2⟩, ⟨"end", "\n", 2, 4⟩] := by decide +kernel
  have hplaces : run.places = [⟨1, 0⟩, ⟨2, 2⟩, ⟨2, 4⟩, ⟨3, 0⟩] := by decide +kernel
  obtain ⟨hlocates, -, hcalls, hpairwise⟩ := calls_locate folds text none
  have hsecond : run.tokens[1]? = some ⟨"if", "if", 2, 2⟩ := by rw [htokens]; rfl
  obtain ⟨hoffset, hvalue⟩ := hlocates 1 _ (hcalls 1 _ hsecond)
  have hfound : (start text).offset (({} : Table).afterAll folds) none 1 = 4 := by decide +kernel
  rw [hfound] at hoffset hvalue
  exact ⟨htokens, hplaces, hoffset, hvalue, hpairwise⟩

end Scan
end Munch
