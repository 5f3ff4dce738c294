import Munch.Grammar.File
import Munch.Proofs.Grammar.Refusing
import Munch.Proofs.Table.BuiltIn

/-! Loading grammar files.

A file is read, its bytes are text, the text is JSON and the value that it holds is loaded
onto an empty table, or the first of these fails (`FileLoads`); `loadFile` comes to this
and to nothing else (`fileLoads_iff`). The tables of files are well formed, and all
their patterns are built in. -/
namespace Munch.Grammar

/-! ### Tables of grammars -/

section Tables
variable [Engine] {t : Table} {path : Option Text}

theorem Item.asks_of_entry {item : Item} {r : Registration} (h : item.entry = .ok r) :
    item.Asks r := by
  by_cases hasks : ∃ r', item.Asks r'
  · obtain ⟨r', hr'⟩ := hasks
    cases (Item.entry_of_asks hr').symm.trans h
    exact hr'
  · cases (Item.entry_of_not_asks fun r' hr' => hasks ⟨r', hr'⟩).symm.trans h

/-- What a grammar asks for is built in. -/
theorem Item.Asks.builtIn {item : Item} {r : Registration} (h : item.Asks r) : r.BuiltIn := by
  cases h with
  | ignore | rule => nofun
  | literal | keyword => trivial

theorem registrations_builtIn {definition : Value} {listed : List Entry}
    (h : entries definition = .ok listed) : ∀ r ∈ registrations listed, r.BuiltIn := by
  intro r hr
  obtain ⟨entry, hentry, hsome⟩ := List.mem_filterMap.mp hr
  rcases malformed_or_lists definition with ⟨fault, hmalformed⟩ | ⟨items, hitems⟩
  · cases (entries_of_malformed hmalformed).symm.trans h
  · cases (entries_of_lists hitems).symm.trans h
    obtain ⟨item, -, rfl⟩ := List.mem_map.mp hentry
    cases hitem : item.entry with
    | error fault =>
      rw [hitem] at hsome
      cases hsome
    | ok r' =>
      rw [hitem] at hsome
      cases hsome
      exact (Item.asks_of_entry hitem).builtIn

/-- What registrations of built-in patterns keep is kept by loading. -/
theorem load_preserves {P : Table → Prop}
    (hP : ∀ t r t' record, Table.Registers t r t' record → r.BuiltIn → P t → P t')
    (ht : P t) (definition : Value) : P (load t definition path).table := by
  have hregister : ∀ listed : List Entry, (∀ r ∈ registrations listed, r.BuiltIn) →
      ∀ earlier t, P t → P (register path earlier t listed).table := by
    intro listed
    induction listed with
    | nil => exact fun _ _ _ ht => ht
    | cons entry rest ih =>
      intro h earlier t ht
      cases entry with
      | error fault => exact ht
      | ok r =>
        obtain ⟨hr, hrest⟩ :=
          List.forall_mem_cons.mp (show ∀ r' ∈ r :: registrations rest, _ from h)
        rw [register]
        cases hregister : t.register r with
        | error e => exact ht
        | ok result => exact ih hrest _ _ (hP _ _ _ _ (Table.registers_of_ok hregister) hr ht)
  rw [load]
  cases hentries : entries definition with
  | error fault => exact ht
  | ok listed =>
    have htable := hregister listed (registrations_builtIn hentries) [] t ht
    cases h : (register path [] t listed).error <;> simpa only [h] using htable

theorem load_builtIn (ht : t.BuiltIn) (definition : Value) :
    (load t definition path).table.BuiltIn :=
  load_preserves (fun _ _ _ _ h hr ht => h.builtIn hr ht) ht definition

end Tables

/-! ### Files -/

section Results
variable [Engine]

/-- What loading gives: the table, or the error that ended it early. -/
def Loading.result (loading : Loading) : Except Error Table :=
  match loading.error with
  | some e => .error e
  | none => .ok loading.table

/-- What loading the file at a path, with these contents, may come to. -/
inductive FileLoads (limits : Json.Limits) (path : Text) :
    Except FileFault (List UInt8) → Except Error Table → Prop
  | unreadable {fault} : FileLoads limits path (.error fault) (.error (.file fault))
  | notText {bytes fault} : Text.ofFile bytes = .error fault →
      FileLoads limits path (.ok bytes) (.error (.grammar (.invalidUtf8 fault) (some path)))
  | notJson {bytes text refusal} : Text.ofFile bytes = .ok text →
      Json.parse limits text = .error refusal →
      FileLoads limits path (.ok bytes) (.error (jsonError path refusal))
  | refused {bytes text definition e} : Text.ofFile bytes = .ok text →
      Json.parse limits text = .ok definition →
      (load {} definition (some path)).error = some e → FileLoads limits path (.ok bytes) (.error e)
  | loaded {bytes text definition} : Text.ofFile bytes = .ok text →
      Json.parse limits text = .ok definition → (load {} definition (some path)).error = none →
      FileLoads limits path (.ok bytes) (.ok (load {} definition (some path)).table)

end Results

section Parsing
variable {limits : Json.Limits} {path : Text} {bytes : List UInt8} {text : List Char}

theorem parseFile_of_not_text {fault : Text.Utf8.Fault} (h : Text.ofFile bytes = .error fault) :
    parseFile limits path bytes = .error (.grammar (.invalidUtf8 fault) (some path)) := by
  rw [parseFile, h]
  rfl

theorem parseFile_of_text (h : Text.ofFile bytes = .ok text) :
    parseFile limits path bytes = (Json.parse limits text).mapError (jsonError path) := by
  rw [parseFile, h]
  rfl

theorem parseFile_of_not_json {refusal : Json.Refusal} (h : Text.ofFile bytes = .ok text)
    (hjson : Json.parse limits text = .error refusal) :
    parseFile limits path bytes = .error (jsonError path refusal) := by
  rw [parseFile_of_text h, hjson]
  rfl

end Parsing

section Files
variable [Engine] {limits : Json.Limits} {path : Text}
  {contents : Except FileFault (List UInt8)} {result : Except Error Table} {t : Table} {e : Error}

theorem loadFile_of_json {bytes : List UInt8} {text : List Char} {definition : Value}
    (htext : Text.ofFile bytes = .ok text) (hjson : Json.parse limits text = .ok definition) :
    loadFile limits path (.ok bytes) = load {} definition (some path) := by
  rw [loadFile, parseFile_of_text htext, hjson]
  rfl

theorem loadFile_of_parseFile {bytes : List UInt8} (h : parseFile limits path bytes = .error e) :
    loadFile limits path (.ok bytes) = { table := {}, error := some e } := by
  rw [loadFile, h]

theorem FileLoads.result_eq (h : FileLoads limits path contents result) :
    (loadFile limits path contents).result = result := by
  cases h with
  | unreadable => rfl
  | notText htext =>
    rw [loadFile_of_parseFile (parseFile_of_not_text htext)]
    rfl
  | notJson htext hjson =>
    rw [loadFile_of_parseFile (parseFile_of_not_json htext hjson)]
    rfl
  | refused htext hjson hload => simp only [loadFile_of_json htext hjson, Loading.result, hload]
  | loaded htext hjson hload => simp only [loadFile_of_json htext hjson, Loading.result, hload]

theorem exists_fileLoads (limits : Json.Limits) (path : Text)
    (contents : Except FileFault (List UInt8)) :
    ∃ result, FileLoads limits path contents result := by
  cases contents with
  | error fault => exact ⟨_, .unreadable⟩
  | ok bytes =>
    cases htext : Text.ofFile bytes with
    | error fault => exact ⟨_, .notText htext⟩
    | ok text =>
      cases hjson : Json.parse limits text with
      | error refusal => exact ⟨_, .notJson htext hjson⟩
      | ok definition =>
        cases hload : (load {} definition (some path)).error with
        | some e => exact ⟨_, .refused htext hjson hload⟩
        | none => exact ⟨_, .loaded htext hjson hload⟩

/-- **Files load** as this says, and in no other way. -/
theorem fileLoads_iff :
    FileLoads limits path contents result ↔ (loadFile limits path contents).result = result := by
  constructor
  · exact FileLoads.result_eq
  · rintro rfl
    obtain ⟨result, h⟩ := exists_fileLoads limits path contents
    rwa [h.result_eq]

theorem FileLoads.of_error_eq_some (h : (loadFile limits path contents).error = some e) :
    FileLoads limits path contents (.error e) := by
  rw [fileLoads_iff, Loading.result, h]

theorem FileLoads.of_error_eq_none (h : (loadFile limits path contents).error = none) :
    FileLoads limits path contents (.ok (loadFile limits path contents).table) := by
  rw [fileLoads_iff, Loading.result, h]

theorem FileLoads.unique {result' : Except Error Table} (h : FileLoads limits path contents result)
    (h' : FileLoads limits path contents result') : result = result' :=
  h.result_eq.symm.trans h'.result_eq

theorem FileLoads.wellFormed (h : FileLoads limits path contents (.ok t)) : t.WellFormed := by
  cases h with
  | loaded _ _ _ => exact (load_grows _ _ _).wellFormed Table.wellFormed_empty

theorem FileLoads.builtIn (h : FileLoads limits path contents (.ok t)) : t.BuiltIn := by
  cases h with
  | loaded _ _ _ => exact load_builtIn Table.builtIn_empty _

/-- The host does not fail on the file: the text in it, if it is one, is within the limits, and the
engine does not fail on the sources of the grammar, if it is one. -/
def SettledFile (limits : Json.Limits) (contents : Except FileFault (List UInt8)) : Prop :=
  ∀ bytes text, contents = .ok bytes → Text.ofFile bytes = .ok text →
    match Json.parse limits text with
    | .error (.failure _) => False
    | .error (.fault _) => True
    | .ok definition => SettledSources definition

instance (limits : Json.Limits) (contents : Except FileFault (List UInt8)) :
    Decidable (SettledFile limits contents) :=
  match contents with
  | .error _ => isTrue fun _ _ hcontents => nomatch hcontents
  | .ok bytes =>
    match htext : Text.ofFile bytes with
    | .error _ => isTrue <| by
      intro _ _ hcontents htext'
      cases hcontents
      cases htext.symm.trans htext'
    | .ok text =>
      match hjson : Json.parse limits text with
      | .error (.failure _) => isFalse fun hfile => by
        simpa only [hjson] using hfile bytes text rfl htext
      | .error (.fault _) => isTrue <| by
        intro _ _ hcontents htext'
        cases hcontents
        cases htext.symm.trans htext'
        simp only [hjson]
      | .ok definition => decidable_of_iff (SettledSources definition) <| by
        constructor
        · intro hsources _ _ hcontents htext'
          cases hcontents
          cases htext.symm.trans htext'
          simpa only [hjson] using hsources
        · intro hfile
          simpa only [hjson] using hfile bytes text rfl htext

/-- What is wrong with a settled file is that it cannot be read, or its form, or one of its names
or patterns. -/
theorem FileLoads.error_closed (h : FileLoads limits path contents (.error e))
    (hfile : SettledFile limits contents) :
    (∃ fault, contents = .error fault ∧ e = .file fault) ∨
      (∃ fault, e = .grammar fault (some path)) ∨ e.ofRegistration = true := by
  cases h with
  | unreadable => exact .inl ⟨_, rfl, rfl⟩
  | notText _ => exact .inr (.inl ⟨_, rfl⟩)
  | @notJson _ _ refusal htext hjson =>
    cases refusal with
    | fault fault => exact .inr (.inl ⟨_, rfl⟩)
    | failure f =>
      have hsettled := hfile _ _ rfl htext
      simp only [hjson] at hsettled
  | refused htext hjson hload =>
    have hsources := hfile _ _ rfl htext
    simp only [hjson] at hsources
    exact .inr (hsources.load_error_or hload)

end Files
end Munch.Grammar
