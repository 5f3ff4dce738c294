import Munch.Proofs.Grammar.Files

/-! What loading a grammar file writes and puts on record.

The items that are accepted go on record, each by what it is and not by what the table says of it
(`records_eq_of_accepts`), and then the loading if it is done. Before the record of an item the
engine may have something to say of its source; it may also be heard of an item that is refused
(`FileLogs`). There is nothing else (`fileLogs_iff`). -/
namespace Munch.Grammar
open Table

/-! ### The records of items -/

/-- What goes on record when that is registered which an item asks for. -/
def Item.record? : Item → Option Record
  | ignore (.string source) => some (.ignore (Text.quoted source))
  | keyword (.string literal) =>
    some (.keyword literal ("LiteralPattern(" ++ Text.quoted literal ++ ")"))
  | keyword (.list [.string name, .string literal]) =>
    some (.keyword name ("LiteralPattern(" ++ Text.quoted literal ++ ")"))
  | rule (.list [.string name, .string source]) =>
    some (.rule name ("RegexPattern(" ++ Text.quoted source ++ ")"))
  | _ => none

section
variable [Engine]

/-- A regular expression is shown with the source that it was compiled from. -/
theorem shown_of_compile_source {source : Text} {p : Pattern}
    (h : PatternSpec.compile (.source source) = .ok p) :
    p.shown = "RegexPattern(" ++ Text.quoted source ++ ")" := by
  rw [PatternSpec.compile] at h
  cases hcompile : Engine.compile source with
  | error fault =>
    rw [hcompile] at h
    cases h
  | ok r =>
    rw [hcompile] at h
    cases h
    rw [Pattern.shown, Engine.source_compile hcompile]

theorem Item.Asks.record?_eq {item : Item} {r : Registration} (hasks : item.Asks r)
    {t t' : Table} {record : Record} (h : Registers t r t' record) :
    item.record? = some record := by
  cases hasks with
  | ignore =>
    cases h
    rfl
  | literal | keyword =>
    cases h with
    | keyword htexts _ _ _ =>
      cases htexts
      rfl
  | rule =>
    cases h with
    | rule _ hp =>
      rw [shown_of_compile_source hp]
      rfl

/-- Items that are accepted go on record one after the other. -/
theorem records_eq_of_accepts {items : List Item} {calls : List Registration} {t t' : Table}
    {records : List Record} (hasks : List.Forall₂ Item.Asks items calls)
    (h : t.Accepts calls t' records) : records = items.filterMap Item.record? := by
  induction h generalizing items with
  | nil =>
    cases hasks
    rfl
  | cons hr _ ih =>
    cases hasks with
    | cons hitem hrest =>
      have hrecord := hitem.record?_eq (registers_of_ok hr)
      rw [List.filterMap_cons_some hrecord, ih hrest]

/-! ### Files -/

/-- What loading the file at a path, with these contents, writes and puts on record: nothing unless
it is a grammar, and then what the items that are accepted do, up to the first that fails, and the
loading if there is none that fails. -/
inductive FileLogs (limits : Json.Limits) (path : Text) :
    Except FileFault (List UInt8) → List Event → Prop
  | unreadable {fault} : FileLogs limits path (.error fault) []
  | notText {bytes fault} : Text.ofFile bytes = .error fault → FileLogs limits path (.ok bytes) []
  | notJson {bytes text refusal} : Text.ofFile bytes = .ok text →
      Json.parse limits text = .error refusal → FileLogs limits path (.ok bytes) []
  | malformed {bytes text definition fault} : Text.ofFile bytes = .ok text →
      Json.parse limits text = .ok definition → Malformed definition fault →
      FileLogs limits path (.ok bytes) []
  | done {bytes text definition items calls t records} : Text.ofFile bytes = .ok text →
      Json.parse limits text = .ok definition → Lists definition items →
      List.Forall₂ Item.Asks items calls → Accepts {} calls t records →
      FileLogs limits path (.ok bytes) (courseOf [] calls (items.filterMap Item.record?) ++
        [.record (.loaded t.rules.length t.ignored.length)])
  | failed {bytes text definition before item rest calls t records e} :
      Text.ofFile bytes = .ok text → Json.parse limits text = .ok definition →
      Lists definition (before ++ item :: rest) → List.Forall₂ Item.Asks before calls →
      Accepts {} calls t records →
      item.Fails (({} : Session).after (calls.map .register)) (some path) e →
      FileLogs limits path (.ok bytes) (courseOf [] calls (before.filterMap Item.record?) ++
        notesOn (calls.filterMap Registration.source?) (item.readied? t))

variable {limits : Json.Limits} {path : Text} {contents : Except FileFault (List UInt8)}
  {events : List Event}

theorem FileLogs.events_eq (h : FileLogs limits path contents events) :
    (loadFile limits path contents).events = events := by
  cases h with
  | unreadable => rfl
  | notText htext => rw [loadFile_of_parseFile (parseFile_of_not_text htext)]
  | notJson htext hjson =>
    rw [loadFile_of_parseFile (parseFile_of_not_json htext hjson)]
  | malformed htext hjson hmalformed =>
    rw [loadFile_of_json htext hjson, load, entries_of_malformed hmalformed]
  | done htext hjson hlists hasks haccepts =>
    rw [loadFile_of_json htext hjson, load_of_accepts hlists hasks haccepts,
      ← records_eq_of_accepts hasks haccepts]
  | failed htext hjson hlists hasks haccepts hfails =>
    have hload := load_of_fails hlists hasks haccepts hfails
    rw [loadFile_of_json htext hjson, ← records_eq_of_accepts hasks haccepts]
    exact congrArg Loading.events hload

theorem exists_fileLogs (limits : Json.Limits) (path : Text)
    (contents : Except FileFault (List UInt8)) :
    ∃ events, FileLogs limits path contents events := by
  cases contents with
  | error fault => exact ⟨[], .unreadable⟩
  | ok bytes =>
    cases htext : Text.ofFile bytes with
    | error fault => exact ⟨[], .notText htext⟩
    | ok text =>
      cases hjson : Json.parse limits text with
      | error refusal => exact ⟨[], .notJson htext hjson⟩
      | ok definition =>
        rcases malformed_or_lists definition with ⟨fault, hmalformed⟩ | ⟨items, hlists⟩
        · exact ⟨[], .malformed htext hjson hmalformed⟩
        · obtain ⟨outcome, hloads⟩ := exists_loads {} (some path) items
          cases hloads with
          | done hasks haccepts => exact ⟨_, .done htext hjson hlists hasks haccepts⟩
          | failed hitems hasks haccepts hfails =>
            exact ⟨_, .failed htext hjson (hitems ▸ hlists) hasks haccepts hfails⟩

/-- **Files are logged** as this says, and in no other way. -/
theorem fileLogs_iff :
    FileLogs limits path contents events ↔ (loadFile limits path contents).events = events := by
  constructor
  · exact FileLogs.events_eq
  · rintro rfl
    obtain ⟨events, h⟩ := exists_fileLogs limits path contents
    rwa [h.events_eq]

end

end Munch.Grammar
