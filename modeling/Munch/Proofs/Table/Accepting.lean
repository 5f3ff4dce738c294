import Mathlib.Data.List.Perm.Basic
import Munch.Proofs.Table.Names

/-! Registrations that are all accepted.

`Accepts` follows a table through registrations that it accepts one after the other.
What a registration adds depends on it alone, and so do the name and the literal that
it takes. So a table is what its registrations add, list by list (`Accepts.appends`),
and whether all of them are accepted is a matter of their names and literals
(`Admits`), which their order has no part in (`exists_accepts_iff`, `Admits.perm`). -/
namespace Munch

theorem Table.filterMap_cons_append {α β : Type} (f : α → Option β) (a : α) (l : List α) :
    (a :: l).filterMap f = (f a).toList ++ l.filterMap f := by
  simp only [List.filterMap_eq_flatMap_toList, List.flatMap_cons]

variable [Engine]

/-! ### What a registration adds -/

namespace Registration

/-- The pattern that is ignored from now on, if one is. -/
def pattern? : Registration → Option Pattern
  | ignore spec => spec.compile.toOption
  | _ => none

/-- The rule that is no keyword's, if one is added. -/
def rule? : Registration → Option Rule
  | rule name spec => spec.compile.toOption.map (⟨name.plain, ·⟩)
  | _ => none

/-- The entry in the keyword map, if one is added. -/
def entry? : Registration → Option (Text × Token)
  | keyword name literal =>
    (Table.keywordTexts name literal).toOption.map fun (n, l) => (l, ⟨n, l, -1, -1⟩)
  | _ => none

/-- The name that is in use from now on. -/
def name? (r : Registration) : Option Text := r.rule?.map (·.name) <|> r.entry?.map (·.2.kind)

/-- The literal that is a keyword's from now on. -/
def literal? (r : Registration) : Option Text := r.entry?.map (·.1)

/-- The registration can be accepted: its pattern is one, or its literal is there and is
not empty. -/
def Sound : Registration → Prop
  | ignore spec => ∃ p, spec.compile = .ok p
  | rule _ spec => ∃ p, spec.compile = .ok p
  | keyword name literal => ∃ n l, Table.keywordTexts name literal = .ok (n, l) ∧ l ≠ []

end Registration

namespace Table
open Registration

/-- A table accepts registrations one after the other. -/
inductive Accepts : Table → List Registration → Table → List Record → Prop
  | nil {t} : Accepts t [] t []
  | cons {t t' t'' r rs record records} : t.register r = .ok (t', record) →
      Accepts t' rs t'' records → Accepts t (r :: rs) t'' (record :: records)

variable {t t' : Table} {r : Registration} {rs : List Registration} {record : Record}
  {records : List Record}

/-! ### Rules that are no keywords' -/

def isPlain (t : Table) (r : Rule) : Bool := !(t.keywords.map (·.2.kind)).contains r.name

theorem isPlain_iff {r : Rule} : t.isPlain r = true ↔ r.name ∉ t.keywords.map (·.2.kind) := by
  simp [isPlain]

/-- The rules that are no keywords', in their order. -/
def plainRules (t : Table) : List Rule := t.rules.filter t.isPlain

theorem isPlain_addKeyword_iff {name literal : Text} {r : Rule} :
    (t.addKeyword name literal).isPlain r = true ↔ t.isPlain r = true ∧ r.name ≠ name := by
  have hkinds : (t.addKeyword name literal).keywords.map (·.2.kind) =
      t.keywords.map (·.2.kind) ++ [name] := List.map_append ..
  rw [isPlain_iff, isPlain_iff, hkinds, List.mem_append, not_or, List.mem_singleton]

namespace WellFormed
variable {name : Text}

/-- A new name is no keyword's. -/
theorem isPlain_of_lookup (h : t.WellFormed) (hname : t.names.lookup name = none) (p : Pattern) :
    t.isPlain ⟨name, p⟩ = true := by
  rw [isPlain_iff, h.keywords_eq]
  intro hmem
  obtain ⟨entry, hentry, rfl⟩ := List.mem_map.mp hmem
  exact notMem_of_lookup hname (List.mem_map_of_mem (List.mem_filter.mp hentry).1)

/-- A new name is no rule's. -/
theorem name_ne_of_lookup (h : t.WellFormed) (hname : t.names.lookup name = none) :
    ∀ q ∈ t.rules, q.name ≠ name := by
  rintro q hq rfl
  have hmem : q.name ∈ t.rules.map (·.name) := List.mem_map_of_mem hq
  rw [← h.names_eq] at hmem
  exact notMem_of_lookup hname hmem

theorem plainRules_addRule (h : t.WellFormed) (hname : t.names.lookup name = none) (p : Pattern) :
    (t.addRule name .rule p).plainRules = t.plainRules ++ [⟨name, p⟩] := by
  have hnew : [Rule.mk name p].filter t.isPlain = [⟨name, p⟩] :=
    List.filter_cons_of_pos (h.isPlain_of_lookup hname p)
  show (t.rules ++ [Rule.mk name p]).filter t.isPlain = _
  rw [List.filter_append, hnew, plainRules]

theorem plainRules_addKeyword (h : t.WellFormed) (hname : t.names.lookup name = none)
    (literal : Text) : (t.addKeyword name literal).plainRules = t.plainRules := by
  have hold : t.rules.filter (t.addKeyword name literal).isPlain = t.plainRules := by
    refine List.filter_congr fun q hq => Bool.eq_iff_iff.mpr ?_
    rw [isPlain_addKeyword_iff]
    exact and_iff_left (h.name_ne_of_lookup hname q hq)
  have hnew : [Rule.mk name (.literal literal)].filter (t.addKeyword name literal).isPlain = [] :=
    List.filter_cons_of_neg fun hplain => (isPlain_addKeyword_iff.mp hplain).2 rfl
  show (t.rules ++ [Rule.mk name (.literal literal)]).filter _ = _
  rw [List.filter_append, hold, hnew, List.append_nil]

end WellFormed

/-! ### What one registration adds -/

namespace Registers

theorem ignored_eq (h : Registers t r t' record) :
    t'.ignored = t.ignored ++ r.pattern?.toList := by
  cases h with
  | ignore hp => simp [addIgnored, pattern?, hp, Except.toOption]
  | rule _ _ => simp [addRule, pattern?]
  | keyword _ _ _ _ => simp [addKeyword, addRule, pattern?]

theorem keywords_eq (h : Registers t r t' record) :
    t'.keywords = t.keywords ++ r.entry?.toList := by
  cases h with
  | ignore _ => simp [addIgnored, entry?]
  | rule _ _ => simp [addRule, entry?]
  | keyword htexts _ _ _ => simp [addKeyword, entry?, htexts, Except.toOption]

theorem names_eq (h : Registers t r t' record) :
    t'.names.map (·.1) = t.names.map (·.1) ++ r.name?.toList := by
  cases h with
  | ignore _ => simp [addIgnored, name?, rule?, entry?]
  | rule _ hp => simp [addRule, name?, rule?, hp, Except.toOption]
  | keyword htexts _ _ _ =>
    simp [addKeyword, addRule, name?, rule?, entry?, htexts, Except.toOption]

theorem literals_eq (h : Registers t r t' record) :
    t'.keywords.map (·.1) = t.keywords.map (·.1) ++ r.literal?.toList := by
  rw [h.keywords_eq, List.map_append, literal?, Option.toList_map]

theorem plainRules_eq (h : Registers t r t' record) (ht : t.WellFormed) :
    t'.plainRules = t.plainRules ++ r.rule?.toList := by
  cases h with
  | ignore _ => exact (List.append_nil _).symm
  | rule hname hp =>
    rw [ht.plainRules_addRule hname]
    simp [rule?, hp, Except.toOption]
  | keyword _ hname _ _ =>
    rw [ht.plainRules_addKeyword hname]
    exact (List.append_nil _).symm

theorem sound (h : Registers t r t' record) : r.Sound := by
  cases h with
  | ignore hp => exact ⟨_, hp⟩
  | rule _ hp => exact ⟨_, hp⟩
  | keyword htexts _ _ hne => exact ⟨_, _, htexts, hne⟩

end Registers

/-! ### What registrations add -/

namespace Accepts

theorem grows (h : Accepts t rs t' records) : Grows t t' := by
  induction h with
  | nil => exact .refl
  | cons hr _ ih => exact .step hr ih

theorem afterAll_eq (h : Accepts t rs t' records) : t.afterAll rs = t' := by
  induction h with
  | nil => rfl
  | cons hr _ ih =>
    rw [afterAll, List.foldl_cons, after, hr]
    exact ih

theorem append {t'' : Table} {rs' : List Registration} {records' : List Record}
    (h : Accepts t rs t' records) (h' : Accepts t' rs' t'' records') :
    Accepts t (rs ++ rs') t'' (records ++ records') := by
  induction h with
  | nil => exact h'
  | cons hr _ ih => exact .cons hr (ih h')

theorem of_append {t'' : Table} {rs' : List Registration} (h : Accepts t (rs ++ rs') t'' records) :
    ∃ t' first rest, Accepts t rs t' first ∧ Accepts t' rs' t'' rest := by
  induction rs generalizing t records with
  | nil => exact ⟨t, [], records, .nil, h⟩
  | cons r rs ih =>
    obtain _ | ⟨hr, h⟩ := h
    obtain ⟨t', first, rest, hfirst, hrest⟩ := ih h
    exact ⟨t', _ :: first, rest, .cons hr hfirst, hrest⟩

/-- What each registration adds to a list, all of them add in their order. -/
theorem appends {α : Type} {f : Table → List α} {added : Registration → Option α}
    (hadded : ∀ t r t' record, t.WellFormed → Registers t r t' record →
      f t' = f t ++ (added r).toList)
    (h : Accepts t rs t' records) (ht : t.WellFormed) : f t' = f t ++ rs.filterMap added := by
  induction h with
  | nil => simp
  | cons hr _ ih =>
    have hregisters := registers_of_ok hr
    rw [ih (hregisters.wellFormed ht), hadded _ _ _ _ ht hregisters, List.append_assoc,
      ← filterMap_cons_append]

theorem ignored_eq (h : Accepts t rs t' records) (ht : t.WellFormed) :
    t'.ignored = t.ignored ++ rs.filterMap pattern? :=
  h.appends (f := Table.ignored) (fun _ _ _ _ _ hr => hr.ignored_eq) ht

theorem keywords_eq (h : Accepts t rs t' records) (ht : t.WellFormed) :
    t'.keywords = t.keywords ++ rs.filterMap entry? :=
  h.appends (f := Table.keywords) (fun _ _ _ _ _ hr => hr.keywords_eq) ht

theorem plainRules_eq (h : Accepts t rs t' records) (ht : t.WellFormed) :
    t'.plainRules = t.plainRules ++ rs.filterMap rule? :=
  h.appends (f := Table.plainRules) (fun _ _ _ _ ht hr => hr.plainRules_eq ht) ht

end Accepts

/-! ### What is accepted -/

/-- The registrations can be accepted, and they take names and literals that are all
different from each other and from those of the table. -/
structure Admits (t : Table) (rs : List Registration) : Prop where
  sound : ∀ r ∈ rs, r.Sound
  names : (t.names.map (·.1) ++ rs.filterMap name?).Nodup
  literals : (t.keywords.map (·.1) ++ rs.filterMap literal?).Nodup

/-- Order is no part of it. -/
theorem Admits.perm {rs' : List Registration} (h : t.Admits rs) (hperm : rs'.Perm rs) :
    t.Admits rs' where
  sound r hr := h.sound r (hperm.mem_iff.mp hr)
  names := ((hperm.filterMap name?).append_left _).nodup_iff.mpr h.names
  literals := ((hperm.filterMap literal?).append_left _).nodup_iff.mpr h.literals

/-- The names and literals that a registration takes are admitted before it and used
after it. -/
theorem Registers.admits_iff (h : Registers t r t' record) :
    t.Admits (r :: rs) ↔ t'.Admits rs := by
  have hnames : t'.names.map (·.1) ++ rs.filterMap name? =
      t.names.map (·.1) ++ (r :: rs).filterMap name? := by
    rw [h.names_eq, List.append_assoc, ← filterMap_cons_append]
  have hliterals : t'.keywords.map (·.1) ++ rs.filterMap literal? =
      t.keywords.map (·.1) ++ (r :: rs).filterMap literal? := by
    rw [h.literals_eq, List.append_assoc, ← filterMap_cons_append]
  constructor
  · intro ha
    exact ⟨(List.forall_mem_cons.mp ha.sound).2, hnames ▸ ha.names, hliterals ▸ ha.literals⟩
  · intro ha
    exact ⟨List.forall_mem_cons.mpr ⟨h.sound, ha.sound⟩, hnames ▸ ha.names,
      hliterals ▸ ha.literals⟩

/-- A key that is taken first, where all of them are distinct, is new. -/
theorem lookup_eq_none_of_nodup {β : Type} {entries : List (Text × β)}
    {key? : Registration → Option Text} {key : Text} (hkey : key? r = some key)
    (h : (entries.map (·.1) ++ (r :: rs).filterMap key?).Nodup) : entries.lookup key = none := by
  rw [filterMap_cons_append, hkey] at h
  refine lookup_eq_none fun hmem => ?_
  exact (List.nodup_append.mp h).2.2 key hmem key (List.mem_cons_self ..) rfl

/-- What is admitted first is accepted. -/
theorem Admits.registers (h : t.Admits (r :: rs)) :
    ∃ t' record, Registers t r t' record := by
  have hname (n : Text) (hn : r.name? = some n) : t.names.lookup n = none :=
    lookup_eq_none_of_nodup hn h.names
  have hliteral (l : Text) (hl : r.literal? = some l) : t.keywords.lookup l = none :=
    lookup_eq_none_of_nodup hl h.literals
  have hsound := h.sound r (List.mem_cons_self ..)
  cases r with
  | ignore spec =>
    obtain ⟨p, hp⟩ := hsound
    exact ⟨_, _, .ignore hp⟩
  | rule name spec =>
    obtain ⟨p, hp⟩ := hsound
    exact ⟨_, _, .rule (hname _ (by simp [name?, rule?, hp, Except.toOption])) hp⟩
  | keyword name literal =>
    obtain ⟨n, l, htexts, hne⟩ := hsound
    have hn := hname n (by simp [name?, rule?, entry?, htexts, Except.toOption])
    have hl := hliteral l (by simp [literal?, entry?, htexts, Except.toOption])
    exact ⟨_, _, .keyword htexts hn hl hne⟩

/-- **Registrations are all accepted** exactly if the table admits them. -/
theorem exists_accepts_iff (ht : t.WellFormed) :
    (∃ t' records, Accepts t rs t' records) ↔ t.Admits rs := by
  constructor
  · rintro ⟨t', records, h⟩
    induction h with
    | nil =>
      refine ⟨by simp, ?_, ?_⟩
      · simpa using ht.names_nodup
      · simpa using ht.literals_distinct
    | cons hr _ ih =>
      have hregisters := registers_of_ok hr
      exact hregisters.admits_iff.mpr (ih (hregisters.wellFormed ht))
  · intro h
    induction rs generalizing t with
    | nil => exact ⟨t, [], .nil⟩
    | cons r rest ih =>
      obtain ⟨t', record, hregisters⟩ := h.registers
      obtain ⟨t'', records, haccepts⟩ :=
        ih (hregisters.wellFormed ht) (hregisters.admits_iff.mp h)
      exact ⟨t'', record :: records, .cons hregisters.ok haccepts⟩

end Table
end Munch
