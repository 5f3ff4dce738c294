import Munch.Proofs.Grammar.Files
import Munch.Proofs.Grammar.Shape
import Munch.Proofs.Scan.Placement
import Munch.Proofs.Session.Tables
import Munch.Regex

/-! Grammars in parts.

Two grammars that are loaded one after the other ask for what one grammar with the items
of both asks for, but in another order: the keywords of the second come after the rules of
the first (`AsksFor.rearranged`). This is as good as one order, for keywords may come
anywhere (`load_joined`), as long as no scanner is taken back to a place before its text, where
a piece that is cut off need not be what was matched (`load_joined_back`). -/
namespace Munch.Grammar
open Table Registration

/-- A grammar has the items of two, section by section, those of the first before those of
the second. -/
inductive Joins : Value → Value → Value → Prop
  | object {members₁ members₂ members} : unknown members = [] →
      (∀ name ∈ sectionNames, ∃ listed₁ listed₂, Section members₁ name listed₁ ∧
        Section members₂ name listed₂ ∧ Section members name (listed₁ ++ listed₂)) →
      Joins (.object members₁) (.object members₂) (.object members)

theorem Section.unique {members : List (Text × Value)} {name : Text}
    {listed listed' : List Value} (h : Section members name listed)
    (h' : Section members name listed') : listed = listed' :=
  Except.ok.inj ((items_of_section h).symm.trans (items_of_section h'))

theorem Section.join {members₁ members₂ members : List (Text × Value)} {name : Text}
    {listed₁ listed₂ : List Value} (h₁ : Section members₁ name listed₁)
    (h₂ : Section members₂ name listed₂)
    (h : ∃ listed₁ listed₂, Section members₁ name listed₁ ∧ Section members₂ name listed₂ ∧
      Section members name (listed₁ ++ listed₂)) :
    Section members name (listed₁ ++ listed₂) := by
  obtain ⟨_, _, h₁', h₂', hjoined⟩ := h
  obtain rfl := h₁.unique h₁'
  obtain rfl := h₂.unique h₂'
  exact hjoined

theorem perm_append_append {α : Type} (a b c d : List α) :
    (a ++ b ++ (c ++ d)).Perm (a ++ c ++ (b ++ d)) := by
  simp only [List.append_assoc]
  exact (List.perm_append_comm_assoc b c d).append_left a

/-- Any two grammars of the right shape can be joined. -/
theorem WellShaped.exists_joins {d₁ d₂ : Value} (h₁ : WellShaped d₁) (h₂ : WellShaped d₂) :
    ∃ d, Joins d₁ d₂ d := by
  obtain ⟨-, hignored₁, hkeywords₁, hrules₁⟩ := h₁
  obtain ⟨-, hignored₂, hkeywords₂, hrules₂⟩ := h₂
  obtain ⟨ignored₁, hi₁⟩ := hignored₁.exists_section
  obtain ⟨ignored₂, hi₂⟩ := hignored₂.exists_section
  obtain ⟨keywords₁, hk₁⟩ := hkeywords₁.exists_section
  obtain ⟨keywords₂, hk₂⟩ := hkeywords₂.exists_section
  obtain ⟨rules₁, hr₁⟩ := hrules₁.exists_section
  obtain ⟨rules₂, hr₂⟩ := hrules₂.exists_section
  refine ⟨.object [("ignore", .list (ignored₁ ++ ignored₂)),
    ("keywords", .list (keywords₁ ++ keywords₂)), ("rules", .list (rules₁ ++ rules₂))],
    .object rfl ?_⟩
  simp only [sectionNames, List.forall_mem_cons, List.not_mem_nil, false_implies, implies_true,
    and_true]
  exact ⟨⟨_, _, hi₁, hi₂, .listed rfl⟩, ⟨_, _, hk₁, hk₂, .listed rfl⟩,
    ⟨_, _, hr₁, hr₂, .listed rfl⟩⟩

section
variable [Engine]

/-! ### What sections ask for -/

/-- A grammar asks for registrations, of patterns to ignore, keywords, and rules. -/
inductive AsksFor : Value → List Registration → List Registration → List Registration → Prop
  | object {members ignored keywords rules ignores words others} : unknown members = [] →
      Section members "ignore" ignored → Section members "keywords" keywords →
      Section members "rules" rules →
      List.Forall₂ Item.Asks (ignored.map .ignore) ignores →
      List.Forall₂ Item.Asks (keywords.map .keyword) words →
      List.Forall₂ Item.Asks (rules.map .rule) others →
      AsksFor (.object members) ignores words others

theorem Item.asks_unique : Relator.RightUnique Item.Asks := fun _ _ _ h h' =>
  Except.ok.inj ((Item.entry_of_asks h).symm.trans (Item.entry_of_asks h'))

theorem exists_asks_of_forall {kind : Value → Item} {listed : List Value}
    (h : ∀ v ∈ listed, ∃ r, (kind v).Asks r) :
    ∃ calls, List.Forall₂ Item.Asks (listed.map kind) calls := by
  induction listed with
  | nil => exact ⟨[], .nil⟩
  | cons v rest ih =>
    obtain ⟨⟨r, hr⟩, hrest⟩ := List.forall_mem_cons.mp h
    obtain ⟨calls, hcalls⟩ := ih hrest
    exact ⟨r :: calls, .cons hr hcalls⟩

/-- What a section asks for is all of the kind of the section. -/
theorem forall_of_asks {kind : Value → Item} {P : Registration → Prop}
    (hkind : ∀ v r, (kind v).Asks r → P r) {listed : List Value} {calls : List Registration}
    (h : List.Forall₂ Item.Asks (listed.map kind) calls) : ∀ r ∈ calls, P r := by
  induction listed generalizing calls with
  | nil =>
    cases h
    simp
  | cons v rest ih =>
    obtain _ | ⟨hasks, hrest⟩ := h
    exact List.forall_mem_cons.mpr ⟨hkind v _ hasks, ih hrest⟩

theorem ListOf.exists_asks {kind : Value → Item} {P : Value → Prop}
    (hkind : ∀ v, P v → ∃ r, (kind v).Asks r) {members : List (Text × Value)} {name : Text}
    (h : ListOf P members name) :
    ∃ listed calls, Section members name listed ∧
      List.Forall₂ Item.Asks (listed.map kind) calls := by
  obtain ⟨listed, hlisted⟩ := h.exists_section
  obtain ⟨calls, hcalls⟩ := exists_asks_of_forall fun v hv =>
    hkind v (hlisted.listOf_iff.mp h v hv)
  exact ⟨listed, calls, hlisted, hcalls⟩

theorem WellShaped.exists_asksFor {definition : Value} (h : WellShaped definition) :
    ∃ ignores words others, AsksFor definition ignores words others := by
  cases h with
  | object hknown hignored hkeywords hrules =>
    obtain ⟨_, ignores, hi, hignores⟩ := hignored.exists_asks fun _ =>
      Item.exists_asks_ignore_iff.mpr
    obtain ⟨_, words, hw, hwords⟩ := hkeywords.exists_asks fun _ =>
      Item.exists_asks_keyword_iff.mpr
    obtain ⟨_, others, ho, hothers⟩ := hrules.exists_asks fun _ => Item.exists_asks_rule_iff.mpr
    exact ⟨ignores, words, others,
      .object (unknown_eq_nil_iff.mpr hknown) hi hw ho hignores hwords hothers⟩

/-- Registrations of a kind are all kept, or all left out. -/
structure Sorts (keep : Registration → Bool) (ofIgnore ofKeyword ofRule : Bool) : Prop where
  ignore : ∀ spec, keep (.ignore spec) = ofIgnore
  keyword : ∀ name literal, keep (.keyword name literal) = ofKeyword
  rule : ∀ name spec, keep (.rule name spec) = ofRule

theorem isIgnore_sorts : Sorts isIgnore true false false :=
  ⟨fun _ => rfl, fun _ _ => rfl, fun _ _ => rfl⟩

theorem isRule_sorts : Sorts isRule false false true :=
  ⟨fun _ => rfl, fun _ _ => rfl, fun _ _ => rfl⟩

namespace AsksFor
variable {definition : Value} {ignores words others : List Registration}

theorem lists (h : AsksFor definition ignores words others) :
    ∃ items, Lists definition items ∧
      List.Forall₂ Item.Asks items (ignores ++ words ++ others) := by
  cases h with
  | object hknown hi hw ho hignores hwords hothers =>
    exact ⟨_, .object hknown hi hw ho,
      List.rel_append (List.rel_append hignores hwords) hothers⟩

/-- To filter all that is asked for is to keep what some sections ask for, if the registrations
of one kind are all kept or all left out. -/
theorem filter_eq {keep : Registration → Bool} {ofIgnore ofKeyword ofRule : Bool}
    (hkeep : Sorts keep ofIgnore ofKeyword ofRule) (h : AsksFor definition ignores words others) :
    (ignores ++ words ++ others).filter keep =
      ignores.filter (fun _ => ofIgnore) ++ words.filter (fun _ => ofKeyword) ++
        others.filter (fun _ => ofRule) := by
  cases h with
  | object _ _ _ _ hignores hwords hothers =>
    have hi : ∀ r ∈ ignores, keep r = ofIgnore :=
      forall_of_asks (by rintro v r ⟨⟩; exact hkeep.ignore _) hignores
    have hw : ∀ r ∈ words, keep r = ofKeyword :=
      forall_of_asks (by rintro v r (_ | _) <;> exact hkeep.keyword _ _) hwords
    have ho : ∀ r ∈ others, keep r = ofRule :=
      forall_of_asks (by rintro v r ⟨⟩; exact hkeep.rule _ _) hothers
    rw [List.filter_append, List.filter_append, List.filter_congr hi, List.filter_congr hw,
      List.filter_congr ho]

/-! ### Loading -/

variable {s : Session} {path : Option Text}

/-- Loading does what registering all that is asked for does. -/
theorem step_load_of_accepts (h : AsksFor definition ignores words others) {t : Table}
    {records : List Record} (haccepts : s.table.Accepts (ignores ++ words ++ others) t records) :
    (s.step (.load definition path)).reply = .done ∧
      (s.step (.load definition path)).session = { s with table := t } := by
  obtain ⟨items, hlists, hasks⟩ := h.lists
  rw [← (Loads.done hasks haccepts).eq_step hlists]
  exact ⟨rfl, Session.after_register haccepts⟩

theorem exists_accepts_of_done (h : AsksFor definition ignores words others)
    (hdone : (s.step (.load definition path)).reply = .done) :
    ∃ t records, s.table.Accepts (ignores ++ words ++ others) t records := by
  obtain ⟨items, hlists, hasks⟩ := h.lists
  obtain ⟨calls, t, records, hcalls, haccepts⟩ :=
    ((loads_iff hlists).mpr rfl).accepts_of_done hdone
  obtain rfl := List.right_unique_forall₂' Item.asks_unique hcalls hasks
  exact ⟨t, records, haccepts⟩

/-! ### Joining -/

variable {d₁ d₂ d : Value} {i₁ i₂ w₁ w₂ o₁ o₂ : List Registration}

theorem join (h₁ : AsksFor d₁ i₁ w₁ o₁) (h₂ : AsksFor d₂ i₂ w₂ o₂) (h : Joins d₁ d₂ d) :
    AsksFor d (i₁ ++ i₂) (w₁ ++ w₂) (o₁ ++ o₂) := by
  cases h with
  | object hknown hsections =>
    obtain ⟨-, hi₁, hw₁, ho₁, hignores₁, hwords₁, hothers₁⟩ := h₁
    obtain ⟨-, hi₂, hw₂, ho₂, hignores₂, hwords₂, hothers₂⟩ := h₂
    have hi := hi₁.join hi₂ (hsections "ignore" (by simp [sectionNames]))
    have hw := hw₁.join hw₂ (hsections "keywords" (by simp [sectionNames]))
    have ho := ho₁.join ho₂ (hsections "rules" (by simp [sectionNames]))
    refine .object hknown hi hw ho ?_ ?_ ?_
    · rw [List.map_append]
      exact List.rel_append hignores₁ hignores₂
    · rw [List.map_append]
      exact List.rel_append hwords₁ hwords₂
    · rw [List.map_append]
      exact List.rel_append hothers₁ hothers₂

/-- One grammar has the rules of both last, and two have the keywords of the second after
the rules of the first. -/
theorem rearranged (h₁ : AsksFor d₁ i₁ w₁ o₁) (h₂ : AsksFor d₂ i₂ w₂ o₂)
    (h : AsksFor d (i₁ ++ i₂) (w₁ ++ w₂) (o₁ ++ o₂)) :
    Rearranged (i₁ ++ w₁ ++ o₁ ++ (i₂ ++ w₂ ++ o₂)) (i₁ ++ i₂ ++ (w₁ ++ w₂) ++ (o₁ ++ o₂)) where
  perm := ((perm_append_append i₁ i₂ w₁ w₂).append_right (o₁ ++ o₂)).trans
    (perm_append_append (i₁ ++ w₁) (i₂ ++ w₂) o₁ o₂)
  ignores := by
    rw [h.filter_eq isIgnore_sorts, List.filter_append (i₁ ++ w₁ ++ o₁),
      h₁.filter_eq isIgnore_sorts, h₂.filter_eq isIgnore_sorts]
    simp
  rules := by
    rw [h.filter_eq isRule_sorts, List.filter_append (i₁ ++ w₁ ++ o₁),
      h₁.filter_eq isRule_sorts, h₂.filter_eq isRule_sorts]
    simp

/-! ### Loading in parts -/

theorem step_loads_of_accepts (h₁ : AsksFor d₁ i₁ w₁ o₁) (h₂ : AsksFor d₂ i₂ w₂ o₂)
    {path₁ path₂ : Option Text} {t : Table} {records : List Record}
    (haccepts : s.table.Accepts (i₁ ++ w₁ ++ o₁ ++ (i₂ ++ w₂ ++ o₂)) t records) :
    let first := s.step (.load d₁ path₁)
    let second := first.session.step (.load d₂ path₂)
    first.reply = .done ∧ second.reply = .done ∧ second.session = { s with table := t } := by
  intro first second
  obtain ⟨t', _, _, hfirst, hrest⟩ := haccepts.of_append
  obtain ⟨hdone, hsession⟩ : first.reply = .done ∧ first.session = { s with table := t' } :=
    h₁.step_load_of_accepts hfirst
  refine ⟨hdone, ?_⟩
  simp only [second, hsession]
  exact h₂.step_load_of_accepts hrest

theorem exists_accepts_of_loads (h₁ : AsksFor d₁ i₁ w₁ o₁) (h₂ : AsksFor d₂ i₂ w₂ o₂)
    {path₁ path₂ : Option Text} (hfirst : (s.step (.load d₁ path₁)).reply = .done)
    (hsecond : ((s.step (.load d₁ path₁)).session.step (.load d₂ path₂)).reply = .done) :
    ∃ t records, s.table.Accepts (i₁ ++ w₁ ++ o₁ ++ (i₂ ++ w₂ ++ o₂)) t records := by
  obtain ⟨t', records, haccepts⟩ := h₁.exists_accepts_of_done hfirst
  rw [(h₁.step_load_of_accepts haccepts).2] at hsecond
  obtain ⟨t, records', haccepts'⟩ := h₂.exists_accepts_of_done hsecond
  exact ⟨t, records ++ records', haccepts.append haccepts'⟩

end AsksFor

/-- A grammar adds no negative length. -/
theorem load_ahead {t : Table} {path : Option Text} {text : Text} (ht : t.Ahead text)
    (definition : Value) : (load t definition path).table.Ahead text :=
  load_preserves (fun _ _ _ _ hr hbuiltIn ht => hr.ahead hbuiltIn ht) ht definition

/-- **A grammar may be loaded in parts**, whatever the session: two grammars load one after
the other exactly if the grammar with the items of both loads. Then scanners over the two
tables come to the same, call by call and to the end, if no length that the session ignores is
negative. -/
theorem load_joined (previewLength : Option Int) (commands : List Session.Command)
    (d₁ d₂ : Value) (path₁ path₂ path : Option Text) :
    let s := ({ previewLength } : Session).after commands
    let first := s.step (.load d₁ path₁)
    let second := first.session.step (.load d₂ path₂)
    WellShaped d₁ → WellShaped d₂ →
      (∃ d, Joins d₁ d₂ d) ∧
      ∀ d, Joins d₁ d₂ d →
        let whole := s.step (.load d path)
        (first.reply = .done ∧ second.reply = .done ↔ whole.reply = .done) ∧
        (whole.reply = .done →
          second.session = { whole.session with table := second.session.table } ∧
          ((∀ text, s.table.Ahead text) → ∀ (previewLength : Option Int) (scan : Scan),
            let parts := second.session.table
            let one := whole.session.table
            scan.scanner.next parts previewLength = some (scan.next parts previewLength).scanner ∧
            scan.scanner.next one previewLength = some (scan.next parts previewLength).scanner ∧
            scan.scanner.run parts previewLength = some (scan.run parts previewLength).scanner ∧
            scan.scanner.run one previewLength = some (scan.run parts previewLength).scanner ∧
            ∀ n, scan.calls one previewLength n = scan.calls parts previewLength n)) := by
  intro s first second hshape₁ hshape₂
  refine ⟨hshape₁.exists_joins hshape₂, fun d hjoins => ?_⟩
  intro whole
  have hs : s.table.WellFormed := Session.after_table_wellFormed previewLength commands
  obtain ⟨i₁, w₁, o₁, h₁⟩ := hshape₁.exists_asksFor
  obtain ⟨i₂, w₂, o₂, h₂⟩ := hshape₂.exists_asksFor
  have h := h₁.join h₂ hjoins
  have hmoved := h₁.rearranged h₂ h
  have haccepts_iff := exists_accepts_rearranged_iff hs hmoved
  refine ⟨⟨?_, fun hdone => ?_⟩, fun hdone => ?_⟩
  · rintro ⟨hfirst, hsecond⟩
    obtain ⟨t, records, hone⟩ := haccepts_iff.mp (h₁.exists_accepts_of_loads h₂ hfirst hsecond)
    exact (h.step_load_of_accepts hone).1
  · obtain ⟨t, records, hparts⟩ := haccepts_iff.mpr (h.exists_accepts_of_done hdone)
    obtain ⟨hfirst, hsecond, -⟩ := h₁.step_loads_of_accepts h₂ hparts
    exact ⟨hfirst, hsecond⟩
  · obtain ⟨t, records, hone⟩ := h.exists_accepts_of_done hdone
    obtain ⟨t', records', hparts⟩ := haccepts_iff.mpr ⟨t, records, hone⟩
    have hwhole : whole.session = { s with table := t } := (h.step_load_of_accepts hone).2
    have hsecond : second.session = { s with table := t' } :=
      (h₁.step_loads_of_accepts h₂ hparts).2.2
    have ht : t.WellFormed := hone.grows.wellFormed hs
    have ht' : t'.WellFormed := hparts.grows.wellFormed hs
    have htables : KeywordsMoved t' t := hparts.keywordsMoved hs hone hmoved
    refine ⟨by rw [hwhole, hsecond], fun hahead previewLength scan => ?_⟩
    have hahead₁ : whole.session.table.Ahead scan.input := load_ahead (hahead _) d
    have hahead₂ : second.session.table.Ahead scan.input := load_ahead (load_ahead (hahead _) d₁) d₂
    rw [hwhole] at hahead₁ ⊢
    rw [hsecond] at hahead₂ ⊢
    intro parts one
    obtain ⟨hnext, hrun, hcalls⟩ := Scan.scans_eq_of_moved ht' ht htables previewLength scan
    rw [Scan.scanner_next hahead₁, Scan.scanner_next hahead₂, Scan.scanner_run hahead₁,
      Scan.scanner_run hahead₂, hnext, hrun]
    exact ⟨rfl, rfl, rfl, rfl, hcalls⟩

end

attribute [local instance] Regex.plain

/-- A rule for words. -/
def words : Value := .object [("rules", .list [.list [.string "word", .string "[a-z]+"]])]

/-- A keyword that is a word. -/
def loop : Value := .object [("keywords", .list [.list [.string "DO", .string "do"]])]

/-- The keyword and the rule at once. -/
def wordsLoop : Value := .object
  [("keywords", .list [.list [.string "DO", .string "do"]]),
    ("rules", .list [.list [.string "word", .string "[a-z]+"]])]

theorem words_wellShaped : WellShaped words := by
  refine .object (by simp [sectionNames]) ?_ ?_ ?_
  · rintro v ⟨⟩
  · rintro v ⟨⟩
  · rintro v ⟨⟩
    exact ⟨_, rfl, by simp [IsPair]⟩

theorem loop_wellShaped : WellShaped loop := by
  refine .object (by simp [sectionNames]) ?_ ?_ ?_
  · rintro v ⟨⟩
  · rintro v ⟨⟩
    exact ⟨_, rfl, by simp [IsPair]⟩
  · rintro v ⟨⟩

theorem words_joins : Joins words loop wordsLoop := by
  refine .object rfl ?_
  simp only [sectionNames, List.forall_mem_cons, List.not_mem_nil, false_implies, implies_true,
    and_true]
  exact ⟨⟨[], [], .missing rfl, .missing rfl, .missing rfl⟩,
    ⟨[], _, .missing rfl, .listed rfl, .listed rfl⟩,
    ⟨_, [], .listed rfl, .missing rfl, .listed rfl⟩⟩

/-- Words and the keyword, one grammar after the other. -/
@[irreducible]
def wordsParts : Session :=
  ((({} : Session).step (.load words none)).session.step (.load loop none)).session

/-- Words and the keyword in one grammar. -/
@[irreducible]
def wordsWhole : Session := (({} : Session).step (.load wordsLoop none)).session

/-- The rule wins in the one table and the keyword in the other, and the token is the same. -/
theorem load_joined_words :
    Joins words loop wordsLoop ∧ wordsParts.table.rules.map (·.name) = [("word" : Text), "DO"] ∧
      wordsWhole.table.rules.map (·.name) = [("DO" : Text), "word"] ∧
      ((Scanner.start "do").run wordsWhole.table none).map (·.tokens) =
        some [⟨"DO", "do", 1, 0⟩] := by
  obtain ⟨-, hjoined⟩ := load_joined (some 5) [] words loop none none none
    words_wellShaped loop_wellShaped
  obtain ⟨-, hscans⟩ := hjoined wordsLoop words_joins
  have hloading : (load {} wordsLoop none).error = none :=
    Option.isNone_iff_eq_none.mp (by decide +kernel)
  have hdone : (({} : Session).step (.load wordsLoop none)).reply = .done := by
    simp [Session.step, hloading]
  have hahead (text : Text) : Table.Ahead {} text :=
    Table.ahead_of_builtIn Table.builtIn_empty.ignored text
  obtain ⟨-, hruns⟩ := hscans hdone
  obtain ⟨-, -, -, hone, -⟩ := hruns hahead none (Scan.start "do")
  have hrun : (Scanner.start "do").run wordsWhole.table none =
      some ((Scan.start "do").run wordsParts.table none).scanner := by
    rw [wordsWhole, wordsParts]
    exact hone
  have htokens : ((Scan.start "do").run wordsParts.table none).tokens =
      [⟨"DO", "do", 1, 0⟩] := by decide +kernel
  refine ⟨words_joins, by decide +kernel, by decide +kernel, ?_⟩
  rw [hrun, Option.map_some, ← htokens]
  rfl

/-! ### Scanners that are taken back -/

/-- A rule for any number of a letter, which may be none. -/
def snores : Value := .object [("rules", .list [.list [.string "Z", .string "z*"]])]

/-- The keyword and that rule at once. -/
def snoresLoop : Value := .object
  [("keywords", .list [.list [.string "DO", .string "do"]]),
    ("rules", .list [.list [.string "Z", .string "z*"]])]

theorem snores_joins : Joins snores loop snoresLoop := by
  refine .object rfl ?_
  simp only [sectionNames, List.forall_mem_cons, List.not_mem_nil, false_implies, implies_true,
    and_true]
  exact ⟨⟨[], [], .missing rfl, .missing rfl, .missing rfl⟩,
    ⟨[], _, .missing rfl, .listed rfl, .listed rfl⟩,
    ⟨_, [], .listed rfl, .missing rfl, .listed rfl⟩⟩

/-- At the beginning of a text, two characters are to be given back. -/
def backwards : Pattern :=
  .custom ⟨"backwards", fun _ pos => .ok (if pos = 0 then some (-2) else none)⟩

def backwardsStarted : Session := ({} : Session).after [.register (.ignore (.pattern backwards))]

@[irreducible]
def backwardsParts : Session :=
  ((backwardsStarted.step (.load snores none)).session.step (.load loop none)).session

@[irreducible]
def backwardsWhole : Session := (backwardsStarted.step (.load snoresLoop none)).session

/-- What skipping leaves then: the scanner is two places before the text. -/
def givenBack : Scanner.Skipped := ⟨⟨"xdo", -2, ⟨1, 1⟩⟩, ["x"], none⟩

theorem next_of_back {t : Table} {kind : Text}
    (hback : t.ignoredLength "xdo" 0 = .ok (-2))
    (hrest : t.ignoredLength "xdo" (-2) = .ok 0)
    (hlongest : (t.longest "xdo" (-2)).toOption.map
      (Option.map fun won => (won.1.name, won.2)) = some (some (kind, 2)))
    (hkeywords : t.keywords.lookup [] = none) :
    ((Scanner.start "xdo").next t none).map (·.result.toOption) =
      some (some (some ⟨kind, [], 1, 1⟩)) := by
  have hstay : Scanner.Skips t (.consume (.start "xdo") (-2)) _ := .rest rfl hrest
  have hnext : (Scanner.start "xdo").next t none = some _ :=
    Scanner.next_eq_some_iff.mpr ⟨_, .piece rfl hback (by decide) hstay, rfl⟩
  obtain ⟨r, hr, rfl⟩ : ∃ r, t.longest "xdo" (-2) = .ok (some (r, 2)) ∧
      r.name = kind := by
    rcases hl : t.longest "xdo" (-2) with f | _ | ⟨r, n⟩
    · simp [hl, Except.toOption] at hlongest
    · simp [hl, Except.toOption] at hlongest
    · obtain ⟨hname, rfl⟩ : r.name = kind ∧ n = 2 := by simpa [hl, Except.toOption] using hlongest
      exact ⟨r, rfl, hname⟩
  have hlabel : t.relabel r (givenBack.scanner.piece (2 : Nat)) = (r.name, []) := by
    rw [show givenBack.scanner.piece (2 : Nat) = [] from rfl]
    simp [Table.relabel, hkeywords]
  have hresult : (givenBack.next t none).result = .ok (some _) :=
    Scanner.Skipped.next_of_longest rfl rfl hr
  rw [hlabel] at hresult
  rw [hnext, Option.map_some]
  exact congrArg (fun result => some (Except.toOption result)) hresult

/-- Two places before the text, rule and keyword tie, and what is cut off is empty. -/
theorem load_joined_back :
    Joins snores loop snoresLoop ∧
      ((Scanner.start "xdo").next backwardsParts.table none).map (·.result.toOption) =
        some (some (some ⟨"Z", [], 1, 1⟩)) ∧
      ((Scanner.start "xdo").next backwardsWhole.table none).map (·.result.toOption) =
        some (some (some ⟨"DO", [], 1, 1⟩)) := by
  refine ⟨snores_joins, ?_, ?_⟩
  · exact next_of_back (by decide +kernel) (by decide +kernel) (by decide +kernel)
      (by decide +kernel)
  · exact next_of_back (by decide +kernel) (by decide +kernel) (by decide +kernel)
      (by decide +kernel)

end Munch.Grammar
