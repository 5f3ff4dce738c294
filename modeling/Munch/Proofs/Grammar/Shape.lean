import Munch.Proofs.Grammar.Refusing
import Munch.Regex

/-! Grammars of the right shape.

A grammar is well shaped if it is an object, has no members but the three sections, and
these are lists of texts and of pairs of texts (`WellShaped`), which is to say that each
of its items asks for something (`Lists.wellShaped_iff`). An error of form is the first
fault in the shape that loading comes to (`FirstFault`): faults of the whole are found
before anything is registered, those of an item only if all that the items before it
ask for is accepted. So a grammar of a wrong shape never loads, but one of its names or
patterns may be refused before its shape is (`step_load_form`). -/
namespace Munch.Grammar
open Table

/-! ### The right shape -/

/-- A text. -/
def IsText (v : Value) : Prop := ∃ text, v = .string text

/-- A list of two texts and nothing else. -/
def IsPair (v : Value) : Prop := ∃ a b, v = .list [.string a, .string b]

/-- The member, if it is there, is a list of values that are all of a kind. -/
def ListOf (kind : Value → Prop) (members : List (Text × Value)) (name : Text) : Prop :=
  ∀ v, Value.member? members name = some v → ∃ listed, v = .list listed ∧ ∀ x ∈ listed, kind x

/-- The shape of a grammar. -/
inductive WellShaped : Value → Prop
  | object {members} : (∀ member ∈ members, member.1 ∈ sectionNames) →
      ListOf IsText members "ignore" → ListOf (fun v => IsText v ∨ IsPair v) members "keywords" →
      ListOf IsPair members "rules" → WellShaped (.object members)

section Members
variable {members : List (Text × Value)} {name : Text} {listed : List Value}

theorem unknown_eq_nil_iff :
    unknown members = [] ↔ ∀ member ∈ members, member.1 ∈ sectionNames := by
  simp [unknown, List.filter_eq_nil_iff]

theorem Section.listOf_iff {kind : Value → Prop} (h : Section members name listed) :
    ListOf kind members name ↔ ∀ x ∈ listed, kind x := by
  cases h with
  | missing hnone => simp [ListOf, hnone]
  | listed hsome => simp [ListOf, hsome]

/-- A member that is a list of anything is a section. -/
theorem ListOf.exists_section {kind : Value → Prop} (h : ListOf kind members name) :
    ∃ listed, Section members name listed := by
  cases hmember : Value.member? members name with
  | none => exact ⟨[], .missing hmember⟩
  | some v =>
    obtain ⟨listed, rfl, -⟩ := h v hmember
    exact ⟨listed, .listed hmember⟩

end Members

/-! ### What items ask for -/

theorem WellShaped.exists_lists {definition : Value} (h : WellShaped definition) :
    ∃ items, Lists definition items := by
  cases h with
  | object hknown hignored hkeywords hrules =>
    obtain ⟨_, hi⟩ := hignored.exists_section
    obtain ⟨_, hk⟩ := hkeywords.exists_section
    obtain ⟨_, hr⟩ := hrules.exists_section
    exact ⟨_, .object (unknown_eq_nil_iff.mpr hknown) hi hk hr⟩

section
variable [Engine]

theorem Item.exists_asks_ignore_iff {v : Value} :
    (∃ r, (Item.ignore v).Asks r) ↔ IsText v := by
  constructor
  · rintro ⟨_, ⟨⟩⟩
    exact ⟨_, rfl⟩
  · rintro ⟨source, rfl⟩
    exact ⟨_, .ignore⟩

theorem Item.exists_asks_keyword_iff {v : Value} :
    (∃ r, (Item.keyword v).Asks r) ↔ IsText v ∨ IsPair v := by
  constructor
  · rintro ⟨_, _ | _⟩
    · exact .inl ⟨_, rfl⟩
    · exact .inr ⟨_, _, rfl⟩
  · rintro (⟨literal, rfl⟩ | ⟨name, literal, rfl⟩)
    · exact ⟨_, .literal⟩
    · exact ⟨_, .keyword⟩

theorem Item.exists_asks_rule_iff {v : Value} : (∃ r, (Item.rule v).Asks r) ↔ IsPair v := by
  constructor
  · rintro ⟨_, ⟨⟩⟩
    exact ⟨_, _, rfl⟩
  · rintro ⟨name, source, rfl⟩
    exact ⟨_, .rule⟩

variable {definition : Value} {items : List Item}

/-- **A grammar is well shaped** exactly if each of its items asks for something. -/
theorem Lists.wellShaped_iff (h : Lists definition items) :
    WellShaped definition ↔ ∀ item ∈ items, ∃ r, item.Asks r := by
  cases h with
  | @object members ignored keywords rules hknown hignored hkeywords hrules =>
    have hshape : WellShaped (.object members) ↔ (∀ v ∈ ignored, IsText v) ∧
        (∀ v ∈ keywords, IsText v ∨ IsPair v) ∧ ∀ v ∈ rules, IsPair v := by
      rw [← hignored.listOf_iff, ← hkeywords.listOf_iff, ← hrules.listOf_iff]
      constructor
      · rintro ⟨-, hi, hk, hr⟩
        exact ⟨hi, hk, hr⟩
      · rintro ⟨hi, hk, hr⟩
        exact .object (unknown_eq_nil_iff.mp hknown) hi hk hr
    simp only [hshape, List.forall_mem_append, List.forall_mem_map, Item.exists_asks_ignore_iff,
      Item.exists_asks_keyword_iff, Item.exists_asks_rule_iff, and_assoc]

theorem Malformed.not_lists {fault : GrammarFault} (h : Malformed definition fault) :
    ¬ Lists definition items := fun hlists => by
  cases (entries_of_malformed h).symm.trans (entries_of_lists hlists)

theorem asks_of_forall₂ {calls : List Registration} (h : List.Forall₂ Item.Asks items calls) :
    ∀ item ∈ items, ∃ r, item.Asks r := by
  induction h with
  | nil => simp
  | cons hasks _ ih => exact List.forall_mem_cons.mpr ⟨⟨_, hasks⟩, ih⟩

/-! ### The first fault -/

/-- The fault in the shape of a grammar that loading comes to: it is one of the whole, or
that of an item which asks for nothing, where all that the items before it ask for is
accepted. -/
inductive FirstFault (s : Session) (definition : Value) : GrammarFault → Prop
  | whole {fault} : Malformed definition fault → FirstFault s definition fault
  | item {before item rest calls t records} : Lists definition (before ++ item :: rest) →
      List.Forall₂ Item.Asks before calls → s.table.Accepts calls t records →
      (∀ r, ¬ item.Asks r) → FirstFault s definition item.fault

variable {s : Session} {path : Option Text}

theorem FirstFault.not_wellShaped {fault : GrammarFault} (h : FirstFault s definition fault) :
    ¬ WellShaped definition := by
  intro hshape
  obtain ⟨items, hlists⟩ := hshape.exists_lists
  cases h with
  | whole hmalformed => exact hmalformed.not_lists hlists
  | item hlists' _ _ hnone =>
    obtain ⟨r, hr⟩ := hlists'.wellShaped_iff.mp hshape _ (List.mem_append_right _ (.head _))
    exact hnone r hr

/-- The registration of a grammar that loading is refused, and its error: an item asks for it,
and all that the items before that one ask for is accepted. -/
inductive FirstRefused (s : Session) (definition : Value) : Error → Prop
  | item {before item rest calls t records r e} : Lists definition (before ++ item :: rest) →
      List.Forall₂ Item.Asks before calls → s.table.Accepts calls t records → item.Asks r →
      t.Refuses r e → FirstRefused s definition e

/-- **Loading fails** for the first fault in the shape, or for the first registration that is
refused, whichever it comes to, and with the error of that. -/
theorem step_load_failed_iff {e : Error} :
    (s.step (.load definition path)).reply = .failed e ↔
      (∃ fault, e = .grammar fault path ∧ FirstFault s definition fault) ∨
        FirstRefused s definition e := by
  constructor
  · intro hreply
    rcases malformed_or_lists definition with ⟨fault', hmalformed⟩ | ⟨items, hlists⟩
    · rw [step_load_of_malformed s path hmalformed] at hreply
      cases hreply
      exact .inl ⟨_, rfl, .whole hmalformed⟩
    · have hloads : Loads s path items (s.step (.load definition path)) :=
        (loads_iff hlists).mpr rfl
      generalize s.step (.load definition path) = outcome at hreply hloads
      cases hloads with
      | done _ _ => cases hreply
      | failed hitems hasks haccepts hfails =>
        cases hreply
        subst hitems
        cases hfails with
        | illShaped hnone => exact .inl ⟨_, rfl, .item hlists hasks haccepts hnone⟩
        | refused hitem hrefused =>
          rw [Session.after_register haccepts] at hrefused
          have hrefuses := refuses_iff.mpr (Session.step_register_failed_iff.mp hrefused)
          exact .inr (.item hlists hasks haccepts hitem hrefuses)
  · rintro (⟨fault, rfl, hfault⟩ | hrefused)
    · cases hfault with
      | whole hmalformed =>
        rw [step_load_of_malformed s path hmalformed]
        rfl
      | @item before item rest calls t records hlists hasks haccepts hnone =>
        have hloads : Loads s path (before ++ item :: rest) _ :=
          .failed rfl hasks haccepts (.illShaped hnone)
        rw [← (loads_iff hlists).mp hloads]
    · obtain @⟨before, item, rest, calls, t, records, r, _, hlists, hasks, haccepts, hitem,
        hrefuses⟩ := hrefused
      have hfails : item.Fails (s.after (calls.map .register)) path e := by
        refine .refused hitem ?_
        rw [Session.after_register haccepts]
        exact Session.step_register_failed_iff.mpr hrefuses.register
      have hloads : Loads s path (before ++ item :: rest) _ :=
        .failed rfl hasks haccepts hfails
      rw [← (loads_iff hlists).mp hloads]

theorem FirstRefused.ne_grammar {e : Error} (h : FirstRefused s definition e)
    (fault : GrammarFault) (file : Option Text) : e ≠ .grammar fault file := by
  obtain ⟨-, -, -, -, hrefuses⟩ := h
  exact hrefuses.ne_grammar fault file

/-- **Errors of form** are first faults. -/
theorem step_load_failed_form_iff {fault : GrammarFault} {file : Option Text} :
    (s.step (.load definition path)).reply = .failed (.grammar fault file) ↔
      file = path ∧ FirstFault s definition fault := by
  rw [step_load_failed_iff]
  constructor
  · rintro (⟨_, heq, hfault⟩ | hrefused)
    · cases heq
      exact ⟨rfl, hfault⟩
    · exact absurd rfl (hrefused.ne_grammar fault file)
  · rintro ⟨rfl, hfault⟩
    exact .inl ⟨fault, rfl, hfault⟩

theorem step_load_done_or_failed (s : Session) (definition : Value) (path : Option Text) :
    (s.step (.load definition path)).reply = .done ∨
      ∃ e, (s.step (.load definition path)).reply = .failed e := by
  rw [Session.step]
  cases (load s.table definition path).error with
  | none => exact .inl rfl
  | some e => exact .inr ⟨e, rfl⟩

/-- A grammar of a wrong shape does not load. -/
theorem wellShaped_of_done (h : (s.step (.load definition path)).reply = .done) :
    WellShaped definition := by
  rcases malformed_or_lists definition with ⟨fault, hmalformed⟩ | ⟨items, hlists⟩
  · rw [step_load_of_malformed s path hmalformed] at h
    cases h
  · have hloads : Loads s path items (s.step (.load definition path)) :=
      (loads_iff hlists).mpr rfl
    obtain ⟨_, _, _, hasks, -⟩ := hloads.accepts_of_done h
    exact hlists.wellShaped_iff.mpr (asks_of_forall₂ hasks)

/-- **What a grammar is refused for**, if the engine does not fail on its sources. Loading
fails for the first fault in the shape, with an error of form that names the file, or for the
first registration that is refused, with the error of that, which is one of a name or a
pattern; it comes to one of these, the one that is listed first. So a grammar of the right
shape loads, or one of its registrations is refused; and one of a wrong shape never loads, and
what fails is its first fault or a registration that is listed before it. -/
theorem step_load_form (s : Session) (definition : Value) (path : Option Text)
    (hsources : SettledSources definition) :
    let reply := (s.step (.load definition path)).reply
    (∀ fault file, reply = .failed (.grammar fault file) ↔
      file = path ∧ FirstFault s definition fault) ∧
    (∀ e, reply = .failed e ∧ e.ofRegistration = true ↔ FirstRefused s definition e) ∧
    (∀ fault, FirstFault s definition fault →
      ¬ WellShaped definition ∧ ∀ e, ¬ FirstRefused s definition e) ∧
    (WellShaped definition → reply = .done ∨ ∃ e, FirstRefused s definition e) ∧
    (¬ WellShaped definition →
      (∃ fault, FirstFault s definition fault) ∨ ∃ e, FirstRefused s definition e) := by
  intro reply
  have hrefused {e : Error} (h : FirstRefused s definition e) :
      reply = .failed e ∧ e.ofRegistration = true := by
    have hreply : reply = .failed e := step_load_failed_iff.mpr (.inr h)
    rcases hsources.load_error_or (Session.step_load_failed_iff.mp hreply) with
      ⟨fault, hform⟩ | hregistration
    · exact absurd hform (h.ne_grammar fault path)
    · exact ⟨hreply, hregistration⟩
  have hreply : reply = .done ∨ ∃ e, reply = .failed e :=
    step_load_done_or_failed s definition path
  refine ⟨fun fault file => step_load_failed_form_iff, fun e => ⟨?_, hrefused⟩,
    fun fault h => ⟨h.not_wellShaped, fun e hfirst => ?_⟩, fun hshape => ?_, fun hshape => ?_⟩
  · rintro ⟨he, hregistration⟩
    rcases step_load_failed_iff.mp he with ⟨fault, rfl, -⟩ | hfirst
    · cases hregistration
    · exact hfirst
  · have hform : reply = .failed (.grammar fault path) :=
      step_load_failed_form_iff.mpr ⟨rfl, h⟩
    cases (hrefused hfirst).1.symm.trans hform
    exact absurd rfl (hfirst.ne_grammar fault path)
  · refine hreply.imp_right ?_
    rintro ⟨e, he⟩
    rcases step_load_failed_iff.mp he with ⟨fault, -, hfault⟩ | hfirst
    · exact absurd hshape hfault.not_wellShaped
    · exact ⟨e, hfirst⟩
  · rcases hreply with hdone | ⟨e, he⟩
    · exact absurd (wellShaped_of_done hdone) hshape
    · rcases step_load_failed_iff.mp he with ⟨fault, -, hfault⟩ | hfirst
      · exact .inl ⟨fault, hfault⟩
      · exact .inr ⟨e, hfirst⟩

end

attribute [local instance] Regex.plain

/-- The third keyword has a wrong shape, and the fourth the literal of the first. -/
def numbered : Value := .object
  [("keywords", .list [.string "if", .string "else", .int 3, .string "if"])]

/-- The keywords before the one of a wrong shape are accepted, so that it is the first
fault, and the one after it is not come to. -/
theorem step_load_form_numbered :
    SettledSources numbered ∧
      (({} : Session).step (.load numbered none)).reply =
        .failed (.grammar (.badKeyword (.int 3)) none) ∧
      FirstFault {} numbered (.badKeyword (.int 3)) ∧ ¬ WellShaped numbered := by
  have hsources : SettledSources numbered := by decide +kernel
  have hform := step_load_form {} numbered none hsources
  have hreply : (({} : Session).step (.load numbered none)).reply =
      .failed (.grammar (.badKeyword (.int 3)) none) := by rfl
  have hfirst : FirstFault {} numbered (.badKeyword (.int 3)) := ((hform.1 _ _).mp hreply).2
  exact ⟨hsources, hreply, hfirst, (hform.2.2.1 _ hfirst).1⟩

/-- The second keyword is the first once more, and the third has a wrong shape. -/
def repeated : Value := .object
  [("keywords", .list [.string "if", .string "if", .int 3])]

/-- Errors of form are not all that a wrong shape comes to: a name that is in use is
refused before the wrong shape after it is come to. -/
theorem step_load_repeated :
    ¬ WellShaped repeated ∧ SettledSources repeated ∧
      (({} : Session).step (.load repeated none)).reply =
        .failed (.duplicateName "if" .keyword) ∧
      ¬ ((∃ fault file, (({} : Session).step (.load repeated none)).reply =
          .failed (.grammar fault file)) ↔ ¬ WellShaped repeated) := by
  have hshape : ¬ WellShaped repeated := by
    rintro ⟨-, -, hkeywords, -⟩
    obtain ⟨listed, hlisted, hall⟩ := hkeywords _ rfl
    cases hlisted
    rcases hall (.int 3) (by simp) with ⟨_, ⟨⟩⟩ | ⟨_, _, ⟨⟩⟩
  have hreply : (({} : Session).step (.load repeated none)).reply =
      .failed (.duplicateName "if" .keyword) := by rfl
  refine ⟨hshape, by decide +kernel, hreply, fun hiff => ?_⟩
  obtain ⟨fault, file, hform⟩ := hiff.mpr hshape
  rw [hreply] at hform
  cases hform

end Munch.Grammar
