import Munch.Proofs.Scanner.Scans
import Munch.Session

/-! What a session can come to.

`Session.after` is the session after a list of commands, failing ones included.
Its table has grown out of the one it had (`after_table_grows`), and its scanners were
moved by starting on a text, by calls of `next`, and by taking characters, and by
nothing else (`step_scanners`). As long as no length to be ignored is negative, and no
command takes characters back, they are where scans are (`after_scans`). -/
namespace Munch

theorem Session.lookup_filter {α : Type} (l : List (String × α)) (on name : String) :
    (l.filter (·.1 != on)).lookup name = if name = on then none else l.lookup name := by
  induction l with
  | nil => simp
  | cons p rest ih =>
    obtain ⟨key, value⟩ := p
    by_cases hname : name = key
    · subst hname
      by_cases hon : name = on
      · subst hon
        simpa using ih
      · simp [hon]
    · have hne : (name == key) = false := beq_eq_false_iff_ne.mpr hname
      by_cases hkey : key = on
      · subst hkey
        simpa [hname, hne, List.lookup_cons] using ih
      · simpa [hkey, hne, List.lookup_cons] using ih

variable [Engine]

/-! ### Grammars -/

namespace Grammar

theorem register_grows (path : Option Text) (earlier : List Text) (t : Table)
    (entries : List Entry) : t.Grows (register path earlier t entries).table := by
  induction entries generalizing earlier t with
  | nil => exact .refl
  | cons entry rest ih =>
    cases entry with
    | error fault => exact .refl
    | ok r =>
      rw [register]
      cases h : t.register r with
      | error e => exact .refl
      | ok result => exact .step h (ih _ result.1)

/-- Loading a grammar registers entries, and does nothing else to the table. -/
theorem load_grows (t : Table) (definition : Value) (path : Option Text) :
    t.Grows (load t definition path).table := by
  rw [load]
  cases entries definition with
  | error fault => exact .refl
  | ok entries =>
    have hgrows := register_grows path [] t entries
    cases h : (register path [] t entries).error <;> simpa only [h] using hgrows

end Grammar

/-! ### Commands -/

namespace Session

/-- The session after commands, whatever each of them comes to. -/
def after (s : Session) (commands : List Command) : Session :=
  commands.foldl (fun s c => (s.step c).session) s

theorem after_append (s : Session) (commands rest : List Command) :
    s.after (commands ++ rest) = (s.after commands).after rest :=
  List.foldl_append

theorem scanner?_setScanner (s : Session) (on name : String) (scanner : Option Scanner) :
    (s.setScanner on scanner).scanner? name = if name = on then scanner else s.scanner? name := by
  rw [scanner?, setScanner, List.lookup_append, lookup_filter]
  by_cases hname : name = on
  · cases scanner <;> simp [hname]
  · have hne : (name == on) = false := beq_eq_false_iff_ne.mpr hname
    cases scanner <;> simp [hname, hne, List.lookup_cons, scanner?]

theorem scanner?_setScanner_same (s : Session) (on : String) (scanner : Option Scanner) :
    (s.setScanner on scanner).scanner? on = scanner := by
  rw [scanner?_setScanner, if_pos rfl]

theorem step_next {s : Session} {on : String} {scanner : Scanner} {step : Scanner.Step}
    (hscanner : s.scanner? on = some scanner)
    (hstep : scanner.next s.table s.previewLength = some step) :
    s.step (.next on) =
      { session := s.setScanner on (some step.scanner)
        records := step.records
        reply := replyOf .token step.result } := by
  simp only [Session.step, hscanner, hstep]

theorem step_next_scan {s : Session} {on : String} {scan : Scan}
    (hscan : s.scanner? on = some scan.scanner) (hahead : s.table.Ahead scan.input) :
    let called := scan.next s.table s.previewLength
    (s.step (.next on)).session = s.setScanner on (some called.scan.scanner) ∧
      (s.step (.next on)).reply = replyOf .token called.result := by
  rw [step_next hscan (Scan.scanner_next hahead)]
  exact ⟨rfl, rfl⟩

/-- Whether a command is to register something. -/
def Command.registers : Command → Bool
  | .register _ | .load _ _ => true
  | _ => false

/-- A command that registers nothing leaves the table. -/
theorem step_table_eq (s : Session) {c : Command} (hc : c.registers = false) :
    (s.step c).session.table = s.table := by
  cases c with
  | register _ | load _ _ => cases hc
  | next on =>
    rw [step]
    cases s.scanner? on with
    | none => rfl
    | some scanner => cases h : scanner.next s.table s.previewLength <;> simp only [h] <;> rfl
  | iterate on =>
    rw [step]
    cases s.scanner? on with
    | none => rfl
    | some scanner => cases h : scanner.run s.table s.previewLength <;> simp only [h] <;> rfl
  | tokenize text =>
    rw [step]
    cases (Scanner.start text).run s.table s.previewLength <;> rfl
  | consume on =>
    rw [step]
    cases s.scanner? on <;> rfl
  | relabel rule value =>
    rw [step]
    cases s.table.rules[rule]? <;> rfl
  | _ => rfl

/-- The table after a command has grown out of the table before it. -/
theorem step_table_grows (s : Session) (c : Command) :
    s.table.Grows (s.step c).session.table := by
  cases hc : c.registers with
  | false =>
    rw [step_table_eq s hc]
    exact .refl
  | true =>
    cases c with
    | register r =>
      rw [step]
      cases h : s.table.register r with
      | error e => exact .refl
      | ok result => exact .step h .refl
    | load definition path => exact Grammar.load_grows s.table definition path
    | _ => cases hc

theorem after_table_grows (s : Session) (commands : List Command) :
    s.table.Grows (s.after commands).table := by
  induction commands generalizing s with
  | nil => exact .refl
  | cons c rest ih => exact (step_table_grows s c).trans (ih _)

/-! ### Scanners -/

/-- What holds of all scanners of a session. -/
def All (P : Scanner → Prop) (s : Session) : Prop :=
  ∀ on scanner, s.scanner? on = some scanner → P scanner

section Scanners
variable {P : Scanner → Prop} {s : Session}

theorem new_all (previewLength : Option Int) : ({ previewLength } : Session).All P := by
  intro on scanner h
  cases h

theorem All.setScanner (h : s.All P) {on : String} {scanner : Option Scanner}
    (hscanner : ∀ x, scanner = some x → P x) : (s.setScanner on scanner).All P := by
  intro name x hx
  rw [scanner?_setScanner] at hx
  by_cases hname : name = on
  · rw [if_pos hname] at hx
    exact hscanner x hx
  · rw [if_neg hname] at hx
    exact h name x hx

theorem runs_preserves {t : Table} {previewLength : Option Int} {x : Scanner} {run : Scanner.Run}
    (hnext : ∀ x step, P x → x.next t previewLength = some step → P step.scanner)
    (h : Scanner.Runs t previewLength x run) (hx : P x) : P run.scanner := by
  induction h with
  | stop hstep _ | finish hstep _ => exact hnext _ _ hx hstep
  | token hstep _ _ ih => exact ih (hnext _ _ hx hstep)

/-- What holds of scanners that are started, and is kept by calls of `next`, is kept by a
command, unless it takes characters without asking the rules and what it takes does not keep
it. -/
theorem step_scanners {c : Command} (hstart : ∀ text, P (.start text))
    (hnext : ∀ x step, P x → x.next s.table s.previewLength = some step → P step.scanner)
    (hconsume : ∀ on length, c = .consume on length → ∀ x, P x → P (x.consume length))
    (h : s.All P) : (s.step c).session.All P := by
  cases c with
  | register r =>
    rw [step]
    cases s.table.register r <;> exact h
  | start on text => exact h.setScanner fun x hx => Option.some.inj hx ▸ hstart text
  | create on text =>
    refine h.setScanner fun x hx => ?_
    obtain ⟨text, -, rfl⟩ := Option.map_eq_some_iff.mp hx
    exact hstart text
  | next on =>
    rw [step]
    cases hs : s.scanner? on with
    | none => exact h
    | some scanner =>
      simp only
      cases hstep : scanner.next s.table s.previewLength with
      | none => exact h
      | some step =>
        exact h.setScanner fun x hx => Option.some.inj hx ▸ hnext _ _ (h on scanner hs) hstep
  | iterate on =>
    rw [step]
    cases hs : s.scanner? on with
    | none => exact h
    | some scanner =>
      simp only
      cases hrun : scanner.run s.table s.previewLength with
      | none => exact h
      | some run =>
        have hlast := runs_preserves hnext (Scanner.runs_of_run hrun) (h on scanner hs)
        exact h.setScanner fun x hx => Option.some.inj hx ▸ hlast
  | consume on length =>
    rw [step]
    cases hs : s.scanner? on with
    | none => exact h
    | some scanner =>
      have hlast := hconsume on length rfl scanner (h on scanner hs)
      exact h.setScanner fun x hx => Option.some.inj hx ▸ hlast
  | tokenize text =>
    rw [step]
    cases (Scanner.start text).run s.table s.previewLength <;> exact h
  | relabel rule value =>
    rw [step]
    cases s.table.rules[rule]? <;> exact h
  | _ => exact h

end Scanners

/-! ### Scanners that go forward -/

/-- The command does not take characters back. -/
def Command.Forward : Command → Prop
  | consume _ length => 0 ≤ length
  | _ => True

/-- The scanner is where a scan is that has the property `P`. -/
def IsScan (P : Scan → Prop) (x : Scanner) : Prop := ∃ scan : Scan, P scan ∧ x = scan.scanner

section Scans
variable {P : Scan → Prop} (hstart : ∀ text, P (.start text))
  (hconsume : ∀ s n, P s → P (s.consume n))

include hstart hconsume

theorem step_scans {s : Session} {c : Command} (hahead : ∀ text, s.table.Ahead text)
    (hc : c.Forward) (h : s.All (IsScan P)) : (s.step c).session.All (IsScan P) := by
  refine step_scanners (fun text => ⟨_, hstart text, rfl⟩) ?_ ?_ h
  · rintro x step ⟨scan, hscan, rfl⟩ hstep
    obtain rfl := Option.some.inj ((Scan.scanner_next (hahead _)).symm.trans hstep)
    obtain ⟨_, htakes⟩ := Scan.next_takes s.table s.previewLength scan
    exact ⟨_, htakes.preserves hconsume hscan, rfl⟩
  · rintro on length rfl x ⟨scan, hscan, rfl⟩
    obtain ⟨n, rfl⟩ := Int.eq_ofNat_of_zero_le hc
    exact ⟨scan.consume n, hconsume _ _ hscan, scan.scanner_consume n⟩

/-- **Where no length is negative, scanners are where scans are**, and what holds of scans at
their starts, and still when characters are taken, holds of them all. -/
theorem after_scans {s : Session} {commands : List Command} (h : s.All (IsScan P))
    (hahead : ∀ text, (s.after commands).table.Ahead text)
    (hcommands : ∀ c ∈ commands, c.Forward) : (s.after commands).All (IsScan P) := by
  induction commands generalizing s with
  | nil => exact h
  | cons c rest ih =>
    obtain ⟨hc, hrest⟩ := List.forall_mem_cons.mp hcommands
    have hgrows : s.table.Grows (s.after (c :: rest)).table := after_table_grows s (c :: rest)
    have hbefore : ∀ text, s.table.Ahead text := fun text => (hahead text).of_extends hgrows.extends
    exact ih (step_scans hstart hconsume hbefore hc h) hahead hrest

end Scans

end Session
end Munch
