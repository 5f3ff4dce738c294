import Munch.Proofs.Grammar.Files
import Munch.Proofs.Text.Encoding
import Munch.Regex

/-! What grammar files are blamed for.

The file that a grammar came from has no part in what is registered: it is named in
errors of form, and that is all (`load_inFile`). So loading a file is reading it, and then
loading the value that it holds, with its errors of form attributed to the file
(`loadFile_attributes`). -/
namespace Munch

/-- The error with its file, if it is one of form. -/
def Error.inFile (path : Option Text) : Error → Error
  | grammar fault _ => grammar fault path
  | e => e

theorem Error.inFile_of_ne {e : Error} (h : ∀ fault path, e ≠ .grammar fault path)
    (path : Option Text) : e.inFile path = e := by
  cases e with
  | grammar fault file => exact absurd rfl (h fault file)
  | _ => rfl

namespace Grammar

/-! ### The texts of files -/

section Texts
open Text

/-- The text of a file is one whose encoding the bytes are, with its lines ended alike. -/
theorem ofFile_encode (text : List Char) :
    Text.ofFile (Utf8.encode text) = .ok (normalizeNewlines text) := by
  rw [Text.ofFile, Utf8.decode_eq_ok_iff.mpr rfl]
  rfl

theorem encode_of_ofFile {bytes : List UInt8} {text : List Char}
    (h : Text.ofFile bytes = .ok text) :
    ∃ chars, bytes = Utf8.encode chars ∧ text = normalizeNewlines chars := by
  rw [Text.ofFile] at h
  cases hdecode : Utf8.decode bytes with
  | error fault =>
    rw [hdecode] at h
    cases h
  | ok chars =>
    rw [hdecode] at h
    exact ⟨chars, Utf8.decode_eq_ok_iff.mp hdecode, (Except.ok.inj h).symm⟩

end Texts

section
variable [Engine]

/-- The same loading of a grammar that came from another file. -/
def Loading.inFile (path : Option Text) (loading : Loading) : Loading :=
  { loading with error := loading.error.map (Error.inFile path) }

theorem Loading.result_inFile (path : Option Text) (loading : Loading) :
    (loading.inFile path).result = loading.result.mapError (Error.inFile path) := by
  unfold result inFile
  cases loading.error <;> rfl

theorem Loading.result_inFile_eq_ok_iff (path : Option Text) {loading : Loading} {t : Table} :
    (loading.inFile path).result = .ok t ↔ loading.result = .ok t := by
  unfold result inFile
  cases loading.error <;> simp

theorem register_inFile (path file : Option Text) (earlier : List Text) (t : Table)
    (listed : List Entry) :
    register path earlier t listed = (register file earlier t listed).inFile path := by
  induction listed generalizing earlier t with
  | nil => rfl
  | cons entry rest ih =>
    cases entry with
    | error fault => rfl
    | ok r =>
      rw [register, register]
      cases hr : t.register r with
      | error e =>
        have hne := (Table.refuses_iff.mpr hr).ne_grammar
        simp only [Loading.inFile, Option.map_some, Error.inFile_of_ne hne]
      | ok result =>
        simp only [ih]
        rfl

/-- **A file is only named**: grammars of all files are loaded alike. -/
theorem load_inFile (path file : Option Text) (t : Table) (definition : Value) :
    load t definition path = (load t definition file).inFile path := by
  unfold load
  cases entries definition with
  | error fault => rfl
  | ok listed =>
    simp only [register_inFile path file]
    cases herror : (register file [] t listed).error with
    | none => simp [Loading.inFile, herror]
    | some e => simp [Loading.inFile, herror]

/-! ### Loading files -/

section Files
open Text
variable {limits : Json.Limits} {path : Text} {contents : Except FileFault (List UInt8)}
  {text : List Char} {e : Error}

/-- A file with a value in it is loaded as the value is, and is named in errors of form. -/
theorem result_of_json {definition : Value}
    (h : Json.parse limits (normalizeNewlines text) = .ok definition) :
    (loadFile limits path (.ok (Utf8.encode text))).result =
      (load {} definition none).result.mapError (Error.inFile (some path)) := by
  rw [loadFile_of_json (ofFile_encode text) h, load_inFile (some path) none,
    Loading.result_inFile]

/-- What is wrong with the form of a file is attributed to it. -/
theorem FileLoads.file_eq {fault : GrammarFault} {file : Option Text}
    (h : FileLoads limits path contents (.error (.grammar fault file))) : file = some path := by
  generalize he : Error.grammar fault file = e at h
  cases h with
  | unreadable => cases he
  | notText _ =>
    cases he
    rfl
  | @notJson _ _ refusal _ _ =>
    cases refusal with
    | fault _ =>
      cases he
      rfl
    | failure _ => cases he
  | refused _ _ hload =>
    subst he
    rcases load_error hload with ⟨fault', heq⟩ | ⟨_, _, _, _, _, hrefuses⟩
    · cases heq
      rfl
    · exact absurd rfl (hrefuses.ne_grammar fault file)

/-- **What grammar files are blamed for.** A file is loaded if its bytes encode a text, the
text is JSON, and the value in it is accepted, whatever file it is from, and the table is
the value's. Otherwise the file cannot be read, and this is the error; or its form is
wrong, be it as a text, as JSON or as a grammar, and the error names the file; or, if the
host does not fail on it, a name is in use or a pattern is invalid. -/
theorem loadFile_attributes (limits : Json.Limits) (path : Text)
    (contents : Except FileFault (List UInt8)) :
    let result := (loadFile limits path contents).result
    (SettledFile limits contents → ∀ e, result = .error e →
        (∃ fault, contents = .error fault ∧ e = .file fault) ∨
          (∃ fault, e = .grammar fault (some path)) ∨
          (∃ name kind, e = .duplicateName name kind) ∨
          ∃ shown fault, e = .invalidPattern shown fault) ∧
      (∀ fault file, result = .error (.grammar fault file) → file = some path) ∧
      (∀ fault, contents = .error fault → result = .error (.file fault)) ∧
      (∀ bytes, contents = .ok bytes → (∀ text, bytes ≠ Utf8.encode text) →
        ∃ fault, result = .error (.grammar (.invalidUtf8 fault) (some path))) ∧
      (∀ text fault, contents = .ok (Utf8.encode text) →
        Json.parse limits (normalizeNewlines text) = .error (.fault fault) →
        result = .error (.grammar (.invalidJson fault) (some path))) ∧
      (∀ text definition, contents = .ok (Utf8.encode text) →
        Json.parse limits (normalizeNewlines text) = .ok definition →
        result = (load {} definition none).result.mapError (Error.inFile (some path))) ∧
      ∀ t, result = .ok t ↔
        ∃ text definition, contents = .ok (Utf8.encode text) ∧
          Json.parse limits (normalizeNewlines text) = .ok definition ∧
          (load {} definition none).result = .ok t := by
  intro result
  refine ⟨?_, ?_, ?_, ?_, ?_, ?_, ?_⟩
  · intro hfile e he
    rcases (fileLoads_iff.mpr he).error_closed hfile with hunread | hform | hregistration
    · exact .inl hunread
    · exact .inr (.inl hform)
    · cases e with
      | duplicateName name kind => exact .inr (.inr (.inl ⟨name, kind, rfl⟩))
      | invalidPattern shown fault => exact .inr (.inr (.inr ⟨shown, fault, rfl⟩))
      | _ => cases hregistration
  · intro fault file he
    exact (fileLoads_iff.mpr he).file_eq
  · intro fault hcontents
    subst hcontents
    exact fileLoads_iff.mp .unreadable
  · intro bytes hcontents hbytes
    subst hcontents
    cases hdecode : Text.ofFile bytes with
    | ok text =>
      obtain ⟨chars, hchars, -⟩ := encode_of_ofFile hdecode
      exact absurd hchars (hbytes chars)
    | error fault => exact ⟨fault, (FileLoads.notText hdecode).result_eq⟩
  · intro text fault hcontents hjson
    subst hcontents
    exact (FileLoads.notJson (ofFile_encode text) hjson).result_eq
  · intro text definition hcontents hjson
    subst hcontents
    exact result_of_json hjson
  · intro t
    constructor
    · intro ht
      cases fileLoads_iff.mpr ht with
      | @loaded bytes text definition htext hjson hload =>
        obtain ⟨chars, rfl, rfl⟩ := encode_of_ofFile htext
        rw [load_inFile (some path) none] at hload ⊢
        refine ⟨chars, definition, rfl, hjson, ?_⟩
        rw [← Loading.result_inFile_eq_ok_iff (some path), Loading.result, hload]
    · rintro ⟨text, definition, rfl, hjson, hload⟩
      exact (result_of_json hjson).trans (congrArg (Except.mapError _) hload)

end Files

end

attribute [local instance] Regex.plain

/-- Two keywords that are surrogates by themselves, and a rule with a name of two bytes. -/
def accented : List Char :=
  "\x7b\"keywords\": [\"\\ud800\", \"\\ud801\"], \"rules\": [[\"é\", \"a\"]]\x7d".toList

/-- The bytes that a surrogate would have. -/
def surrogate : List UInt8 := [0xed, 0xa0, 0x80]

/-- The file of the keywords and the rule is loaded, as its value is, and the keywords are told
apart. A surrogate that is not escaped is no text, and the file that holds it is named. A list is
JSON and no grammar, and its file is named as well. -/
theorem loadFile_attributes_accented :
    (∃ t definition, (loadFile {} "a.json" (.ok (Text.Utf8.encode accented))).result = .ok t ∧
        (load {} definition none).result = .ok t ∧
        t.rules.map (·.name) = [[.ofNat 0xd800], [.ofNat 0xd801], "é"]) ∧
      (∃ fault, (loadFile {} "b.json" (.ok surrogate)).result =
        .error (.grammar (.invalidUtf8 fault) (some "b.json"))) ∧
      SettledFile {} (.ok (Text.Utf8.encode ['[', ']'])) ∧
      ∃ e, (loadFile {} "c.json" (.ok (Text.Utf8.encode ['[', ']']))).result = .error e ∧
        ((∃ fault, e = .grammar fault (some "c.json")) ∨ e.ofRegistration = true) := by
  obtain ⟨-, -, -, -, -, -, hloaded⟩ :=
    loadFile_attributes {} "a.json" (.ok (Text.Utf8.encode accented))
  obtain ⟨-, -, -, hbytes, -⟩ := loadFile_attributes {} "b.json" (.ok surrogate)
  obtain ⟨hclosed, -⟩ := loadFile_attributes {} "c.json" (.ok (Text.Utf8.encode ['[', ']']))
  refine ⟨?_, ?_, ?_⟩
  · have hnone : (loadFile {} "a.json" (.ok (Text.Utf8.encode accented))).error.isNone = true := by
      decide +kernel
    have hresult := (FileLoads.of_error_eq_none (Option.isNone_iff_eq_none.mp hnone)).result_eq
    obtain ⟨_, definition, -, -, hvalue⟩ := (hloaded _).mp hresult
    exact ⟨_, definition, hresult, hvalue, by decide +kernel⟩
  · refine hbytes surrogate rfl fun text h => ?_
    have hdecode : (Text.Utf8.decode surrogate).isOk = true := by
      rw [Text.Utf8.decode_eq_ok_iff.mpr h]
      rfl
    exact absurd hdecode (by decide)
  · have hsettled : SettledFile {} (.ok (Text.Utf8.encode ['[', ']'])) := by decide +kernel
    have hsome :
        (loadFile {} "c.json" (.ok (Text.Utf8.encode ['[', ']']))).error.isSome = true := by
      decide +kernel
    obtain ⟨e, he⟩ := Option.isSome_iff_exists.mp hsome
    have hresult := (FileLoads.of_error_eq_some he).result_eq
    refine ⟨hsettled, e, hresult, ?_⟩
    rcases hclosed hsettled e hresult with
      ⟨_, hcontents, -⟩ | hform | ⟨_, _, rfl⟩ | ⟨_, _, rfl⟩
    · cases hcontents
    · exact .inl hform
    · exact .inr rfl
    · exact .inr rfl

end Grammar
end Munch
