import Munch.Proofs.Grammar.Form
import Munch.Proofs.Session.Reached
import Munch.Proofs.Table.Accepting
import Munch.Proofs.Table.Refusing
import Munch.Regex

/-! Loading a grammar is registering its items.

A session that loads a grammar does what it would do if the items of the grammar were
registered one by one, up to the first that asks for nothing or is refused; that one's
error ends the loading. If there is none, the loading goes on record (`Loads`). This is
all that loading does (`loads_iff`), except for a grammar that is malformed, which
is refused as a whole. In between the engine may have something to say of the sources that it
makes ready (`courseOf`). -/
namespace Munch
section
variable [Engine]

/-! ### Registering in a session -/

namespace Session

theorem after_register {s : Session} {calls : List Registration} {t : Table}
    {records : List Record} (h : s.table.Accepts calls t records) :
    s.after (calls.map .register) = { s with table := t } := by
  generalize htable : s.table = start at h
  induction h generalizing s with
  | nil =>
    subst htable
    rfl
  | cons hr _ ih =>
    subst htable
    rw [List.map_cons, after, List.foldl_cons, step, hr]
    exact ih rfl

theorem step_register_failed_iff {s : Session} {r : Registration} {e : Error} :
    (s.step (.register r)).reply = .failed e ↔ s.table.register r = .error e := by
  rw [step]
  cases h : s.table.register r with
  | error e' => simp [answer]
  | ok result =>
    obtain ⟨t, record⟩ := result
    cases record <;> simp [nameOf]

end Session

namespace Grammar
open Table

/-! ### What loading comes to -/

/-- An item ends the loading in a session: it asks for nothing, or what it asks for is
refused. -/
inductive Item.Fails (s : Session) (path : Option Text) (item : Item) : Error → Prop
  | illShaped : (∀ r, ¬ item.Asks r) → Fails s path item (.grammar item.fault path)
  | refused {r e} : item.Asks r → (s.step (.register r)).reply = .failed e →
      Fails s path item e

/-- What loading the items of a grammar may come to: all that they ask for is
registered, or what those before one that fails ask for. -/
inductive Loads (s : Session) (path : Option Text) (items : List Item) :
    Session.Outcome → Prop
  | done {calls t records} : List.Forall₂ Item.Asks items calls →
      s.table.Accepts calls t records →
      Loads s path items
        { session := s.after (calls.map .register)
          records := records ++ [.loaded t.rules.length t.ignored.length]
          reply := .done }
  | failed {before item rest calls t records e} : items = before ++ item :: rest →
      List.Forall₂ Item.Asks before calls → s.table.Accepts calls t records →
      item.Fails (s.after (calls.map .register)) path e →
      Loads s path items
        { session := s.after (calls.map .register), records, reply := .failed e }

/-- What the engine says of sources that it makes ready, after the sources `earlier`. -/
def notesOn (earlier : List Text) (source : Option Text) : List Event :=
  source.toList.map fun source => .note (Engine.notes earlier source)

/-- What happens while registrations are accepted that put these records on record: the engine
makes the source of each ready before the record is made. -/
def courseOf (earlier : List Text) : List Registration → List Record → List Event
  | r :: calls, record :: records =>
    notesOn earlier r.source? ++ .record record ::
      courseOf (earlier ++ r.source?.toList) calls records
  | _, _ => []

@[simp] theorem filterMap_record?_notesOn (earlier : List Text) (source : Option Text) :
    (notesOn earlier source).filterMap Event.record? = [] := by
  cases source <;> rfl

theorem filterMap_record?_courseOf {t t' : Table} {calls : List Registration}
    {records : List Record} (h : t.Accepts calls t' records) (earlier : List Text) :
    (courseOf earlier calls records).filterMap Event.record? = records := by
  induction h generalizing earlier with
  | nil => rfl
  | @cons _ _ _ r _ record _ _ _ ih =>
    have hcons : Event.record? (.record record) = some record := rfl
    rw [courseOf, List.filterMap_append, filterMap_record?_notesOn, List.nil_append,
      List.filterMap_cons_some hcons, ih]

/-- The source of a registration that is accepted is made ready. -/
theorem readied?_of_registers {t t' : Table} {r : Registration} {record : Record}
    (h : Registers t r t' record) : readied? t r = r.source? := by
  cases h with
  | @ignore spec => cases spec <;> rfl
  | @rule name spec _ hname =>
    cases spec with
    | source source =>
      simp only [readied?, hname, Option.isNone_none, if_true, Registration.source?]
    | _ => rfl
  | keyword => rfl

/-- Items that ask for registrations that are accepted are registered, and then the rest. -/
theorem register_append {before : List Item} {calls : List Registration} {t t' : Table}
    {records : List Record} (hasks : List.Forall₂ Item.Asks before calls)
    (h : t.Accepts calls t' records) (path : Option Text) (earlier : List Text)
    (rest : List Entry) :
    let loading := register path (earlier ++ calls.filterMap Registration.source?) t' rest
    register path earlier t (before.map Item.entry ++ rest) =
      { loading with events := courseOf earlier calls records ++ loading.events } := by
  induction h generalizing before earlier with
  | nil =>
    cases hasks
    rw [List.filterMap_nil, List.append_nil]
    rfl
  | cons hr _ ih =>
    cases hasks with
    | cons hitem hasks =>
      rw [List.map_cons, List.cons_append, Item.entry_of_asks hitem, register]
      simp only [hr, readied?_of_registers (registers_of_ok hr), ih hasks, filterMap_cons_append,
        courseOf, notesOn, List.append_assoc, List.cons_append]

/-- The source of an item that the engine makes ready, if the item has one. -/
def Item.readied? (t : Table) (item : Item) : Option Text :=
  item.entry.toOption.bind (Grammar.readied? t)

/-- An item that fails ends the loading, and its source may have been made ready. -/
theorem register_of_fails {s : Session} {path : Option Text} {item : Item} {e : Error}
    (h : item.Fails s path e) (earlier : List Text) (rest : List Entry) :
    register path earlier s.table (item.entry :: rest) =
      { table := s.table, events := notesOn earlier (item.readied? s.table), error := some e } := by
  cases h with
  | illShaped hnone =>
    rw [Item.readied?, Item.entry_of_not_asks hnone, register]
    rfl
  | refused hasks hreply =>
    rw [Item.readied?, Item.entry_of_asks hasks, register,
      Session.step_register_failed_iff.mp hreply]
    rfl

/-- What loading the items of a grammar leaves behind when all that they ask for is accepted. -/
theorem load_of_accepts {t t' : Table} {definition : Value} {items : List Item}
    {calls : List Registration} {records : List Record} (hlists : Lists definition items)
    (hasks : List.Forall₂ Item.Asks items calls) (h : t.Accepts calls t' records)
    (path : Option Text) :
    load t definition path =
      { table := t'
        events := courseOf [] calls records ++
          [.record (.loaded t'.rules.length t'.ignored.length)] } := by
  have hregister := register_append hasks h path [] []
  rw [List.append_nil] at hregister
  rw [load, entries_of_lists hlists]
  simp only [hregister, register, List.append_nil]

/-- What loading the items of a grammar leaves behind when one of them fails. -/
theorem load_of_fails {s : Session} {t : Table} {definition : Value} {path : Option Text}
    {before : List Item} {item : Item} {rest : List Item} {calls : List Registration}
    {records : List Record} {e : Error} (hlists : Lists definition (before ++ item :: rest))
    (hasks : List.Forall₂ Item.Asks before calls) (h : s.table.Accepts calls t records)
    (hfails : item.Fails (s.after (calls.map .register)) path e) :
    load s.table definition path =
      { table := t
        events := courseOf [] calls records ++
          notesOn (calls.filterMap Registration.source?) (item.readied? t)
        error := some e } := by
  have hregister := register_append hasks h path [] (item.entry :: rest.map Item.entry)
  rw [Session.after_register h] at hfails
  have hfailed := register_of_fails hfails (calls.filterMap Registration.source?)
    (rest.map Item.entry)
  simp only [List.nil_append, hfailed] at hregister
  rw [load, entries_of_lists hlists]
  simp only [List.map_append, List.map_cons, hregister]

/-! ### It comes to one thing -/

theorem Loads.cons {s : Session} {path : Option Text} {item : Item} {rest : List Item}
    {r : Registration} {t : Table} {record : Record} {outcome : Session.Outcome}
    (hasks : item.Asks r) (hr : s.table.register r = .ok (t, record))
    (h : Loads { s with table := t } path rest outcome) :
    Loads s path (item :: rest) { outcome with records := record :: outcome.records } := by
  have hstep : (s.step (.register r)).session = { s with table := t } := by
    rw [Session.step, hr]
  have hafter (calls : List Registration) : s.after ((r :: calls).map .register) =
      ({ s with table := t } : Session).after (calls.map .register) := by
    rw [← hstep]
    rfl
  cases h with
  | done hrest haccepts =>
    rw [← hafter]
    exact .done (.cons hasks hrest) (.cons hr haccepts)
  | failed hitems hbefore haccepts hfails =>
    rw [← hafter] at hfails ⊢
    exact .failed (congrArg (item :: ·) hitems) (.cons hasks hbefore) (.cons hr haccepts) hfails

/-- Items are all registered, or there is a first one that fails. -/
theorem exists_loads (s : Session) (path : Option Text) (items : List Item) :
    ∃ outcome, Loads s path items outcome := by
  induction items generalizing s with
  | nil => exact ⟨_, .done .nil .nil⟩
  | cons item rest ih =>
    by_cases hasks : ∃ r, item.Asks r
    · obtain ⟨r, hr⟩ := hasks
      cases hregister : s.table.register r with
      | error e =>
        have hreply := Session.step_register_failed_iff.mpr hregister
        exact ⟨_, .failed (List.nil_append _).symm .nil .nil (.refused hr hreply)⟩
      | ok result =>
        obtain ⟨outcome, houtcome⟩ := ih { s with table := result.1 }
        exact ⟨_, houtcome.cons hr hregister⟩
    · have hnone : ∀ r, ¬ item.Asks r := fun r hr => hasks ⟨r, hr⟩
      exact ⟨_, .failed (List.nil_append _).symm .nil .nil (.illShaped hnone)⟩

theorem Loads.eq_step {s : Session} {definition : Value} {path : Option Text}
    {items : List Item} {outcome : Session.Outcome} (hlists : Lists definition items)
    (h : Loads s path items outcome) : outcome = s.step (.load definition path) := by
  cases h with
  | done hasks haccepts =>
    rw [Session.step, load_of_accepts hlists hasks haccepts, Session.after_register haccepts]
    simp only [Loading.records, List.filterMap_append, filterMap_record?_courseOf haccepts]
    rfl
  | failed hitems hasks haccepts hfails =>
    subst hitems
    rw [Session.step, load_of_fails hlists hasks haccepts hfails, Session.after_register haccepts]
    simp only [Loading.records, List.filterMap_append, filterMap_record?_courseOf haccepts,
      filterMap_record?_notesOn, List.append_nil]
    rfl

/-- Loading the items of a grammar comes to what the session does. -/
theorem loads_iff {s : Session} {definition : Value} {path : Option Text} {items : List Item}
    {outcome : Session.Outcome} (hlists : Lists definition items) :
    Loads s path items outcome ↔ outcome = s.step (.load definition path) := by
  constructor
  · exact fun h => h.eq_step hlists
  · rintro rfl
    obtain ⟨outcome, houtcome⟩ := exists_loads s path items
    rwa [← houtcome.eq_step hlists]

theorem step_load_of_malformed (s : Session) {definition : Value} {fault : GrammarFault}
    (path : Option Text) (h : Malformed definition fault) :
    s.step (.load definition path) = s.answer (.failed (.grammar fault path)) := by
  rw [Session.step, load, entries_of_malformed h]
  rfl

/-! ### Success -/

theorem Loads.accepts_of_done {s : Session} {path : Option Text} {items : List Item}
    {outcome : Session.Outcome} (h : Loads s path items outcome) (hdone : outcome.reply = .done) :
    ∃ calls t records, List.Forall₂ Item.Asks items calls ∧ s.table.Accepts calls t records := by
  cases h with
  | done hasks haccepts => exact ⟨_, _, _, hasks, haccepts⟩
  | failed _ _ _ _ => cases hdone

/-- No registration puts a loading on record. -/
theorem loaded_notMem {t t' : Table} {calls : List Registration} {records : List Record}
    (h : t.Accepts calls t' records) (rules patterns : Nat) :
    Record.loaded rules patterns ∉ records := by
  induction h with
  | nil => simp
  | cons hr _ ih =>
    refine List.not_mem_cons_of_ne_of_not_mem ?_ ih
    cases registers_of_ok hr <;> nofun

/-- The loading goes on record, with the numbers of the whole table, when it is done and
not otherwise. -/
theorem Loads.loaded_mem_iff {s : Session} {path : Option Text} {items : List Item}
    {outcome : Session.Outcome} (h : Loads s path items outcome) (rules patterns : Nat) :
    Record.loaded rules patterns ∈ outcome.records ↔
      outcome.reply = .done ∧ rules = outcome.session.table.rules.length ∧
        patterns = outcome.session.table.ignored.length := by
  cases h with
  | done _ haccepts =>
    simp [Session.after_register haccepts, loaded_notMem haccepts]
  | failed _ _ haccepts _ =>
    simp [loaded_notMem haccepts]

/-- **Loading is registering**: a malformed grammar is refused and leaves the session as
it was, and any other one comes to what its items come to, one after the other. It is
done exactly if all of them are of the right form and accepted. -/
theorem step_load_registers (s : Session) (definition : Value) (path : Option Text) :
    let outcome := s.step (.load definition path)
    (∀ fault, Malformed definition fault →
      outcome = s.answer (.failed (.grammar fault path))) ∧
    (∀ items, Lists definition items → ∀ o, Loads s path items o ↔ o = outcome) ∧
    ((∃ fault, Malformed definition fault) ∨ ∃ items, Lists definition items) ∧
    (outcome.reply = .done ↔ ∃ items calls t records, Lists definition items ∧
      List.Forall₂ Item.Asks items calls ∧ s.table.Accepts calls t records) ∧
    ∀ rules patterns, Record.loaded rules patterns ∈ outcome.records ↔
      outcome.reply = .done ∧ rules = outcome.session.table.rules.length ∧
        patterns = outcome.session.table.ignored.length := by
  intro outcome
  have hmalformed (fault : GrammarFault) (h : Malformed definition fault) :
      outcome = s.answer (.failed (.grammar fault path)) := step_load_of_malformed s path h
  have hloads (items : List Item) (h : Lists definition items) : Loads s path items outcome :=
    (loads_iff h).mpr rfl
  refine ⟨hmalformed, fun items h o => loads_iff h, malformed_or_lists definition, ?_, ?_⟩
  · constructor
    · intro hdone
      rcases malformed_or_lists definition with ⟨fault, h⟩ | ⟨items, h⟩
      · rw [hmalformed fault h] at hdone
        cases hdone
      · obtain ⟨calls, t, records, hasks⟩ := (hloads items h).accepts_of_done hdone
        exact ⟨items, calls, t, records, h, hasks⟩
    · rintro ⟨items, calls, t, records, h, hasks, haccepts⟩
      exact congrArg Session.Outcome.reply ((loads_iff h).mp (.done hasks haccepts)).symm
  · intro rules patterns
    rcases malformed_or_lists definition with ⟨fault, h⟩ | ⟨items, h⟩
    · simp [hmalformed fault h, Session.answer]
    · exact (hloads items h).loaded_mem_iff rules patterns

end Grammar

end

namespace Grammar
open Table
attribute [local instance] Regex.plain

/-- The second keyword has the literal of the first. -/
def halfway : Value := .object
  [("rules", .list [.list [.string "word", .string "a+"]]),
    ("keywords", .list [.string "if", .list [.string "also", .string "if"]]),
    ("ignore", .list [.string " "])]

theorem halfway_lists : Lists halfway
    [.ignore (.string " "), .keyword (.string "if"),
      .keyword (.list [.string "also", .string "if"]),
      .rule (.list [.string "word", .string "a+"])] :=
  @Lists.object _ [.string " "] [.string "if", .list [.string "also", .string "if"]]
    [.list [.string "word", .string "a+"]] (by decide +kernel)
    (.listed rfl) (.listed rfl) (.listed rfl)

/-- What comes before the keyword that is refused is registered, and the rule, which
comes after it, is not. -/
theorem step_load_registers_halfway :
    Loads {} none
        [.ignore (.string " "), .keyword (.string "if"),
          .keyword (.list [.string "also", .string "if"]),
          .rule (.list [.string "word", .string "a+"])]
        (({} : Session).step (.load halfway none)) ∧
      (({} : Session).step (.load halfway none)).records =
        [.ignore "' '", .keyword "if" "LiteralPattern('if')"] ∧
      (({} : Session).step (.load halfway none)).session.table.rules.map (·.name) =
        [("if" : Text)] := by
  have hloads := (step_load_registers {} halfway none).2.1 _ halfway_lists
  exact ⟨(hloads _).mpr rfl, by decide +kernel, by decide +kernel⟩

end Grammar
end Munch
