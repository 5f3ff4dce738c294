import Mathlib.Data.List.Nodup
import Munch.Proofs.Table.Growth

/-! Names, rules and keywords stay in step.

A table keeps what it knows of a keyword in three places: its name is in use, a
rule of that name matches its literal, and the keyword map leads from the literal
to the name. `WellFormed` says that the three agree, and `Grows.wellFormed` that no
sequence of registrations can bring them apart. -/
namespace Munch.Table

/-! ### Lists by key -/

theorem lookup_of_mem {α : Type} {l : List (Text × α)} {k : Text} {v : α}
    (hn : (l.map (·.1)).Nodup) (h : (k, v) ∈ l) : l.lookup k = some v := by
  obtain ⟨before, after, rfl⟩ := List.append_of_mem h
  refine List.lookup_eq_some_iff.mpr ⟨before, after, rfl, fun p hp => ?_⟩
  rw [List.map_append, List.nodup_append] at hn
  have hne := hn.2.2 p.1 (List.mem_map_of_mem hp) k (by simp)
  simpa using fun he => hne he.symm

theorem mem_of_lookup {α : Type} {l : List (Text × α)} {k : Text} {v : α}
    (h : l.lookup k = some v) : (k, v) ∈ l := by
  obtain ⟨before, after, rfl, -⟩ := List.lookup_eq_some_iff.mp h
  simp

theorem notMem_of_lookup {α : Type} {l : List (Text × α)} {k : Text}
    (h : l.lookup k = none) : k ∉ l.map (·.1) := by
  intro hk
  obtain ⟨p, hp, rfl⟩ := List.mem_map.mp hk
  have hne := List.lookup_eq_none_iff.mp h p hp
  simp at hne

theorem lookup_eq_none {α : Type} {l : List (Text × α)} {k : Text}
    (h : k ∉ l.map (·.1)) : l.lookup k = none := by
  refine List.lookup_eq_none_iff.mpr fun p hp => ?_
  have hne : k ≠ p.1 := fun he => h (he ▸ List.mem_map_of_mem hp)
  simpa using hne

/-- Where no two items have one key, their order is no part of what is found. -/
theorem lookup_perm {α : Type} {l l' : List (Text × α)} (hn : (l.map (·.1)).Nodup)
    (hperm : l'.Perm l) (k : Text) : l'.lookup k = l.lookup k := by
  have hkeys : (l'.map (·.1)).Perm (l.map (·.1)) := hperm.map _
  cases hl : l.lookup k with
  | none =>
    exact lookup_eq_none fun hmem => notMem_of_lookup hl (hkeys.mem_iff.mp hmem)
  | some v =>
    exact lookup_of_mem (hkeys.nodup_iff.mpr hn) (hperm.mem_iff.mpr (mem_of_lookup hl))

/-- Of a list without two items of one key, the items of a key are one item. -/
theorem filter_key {α : Type} (key : α → Text) {l : List α} (hn : (l.map key).Nodup) {a : α}
    (ha : a ∈ l) : l.filter (fun b => key b = key a) = [a] := by
  obtain ⟨before, after, rfl⟩ := List.append_of_mem ha
  rw [List.map_append, List.map_cons, List.nodup_append, List.nodup_cons] at hn
  have hbefore : before.filter (fun b => key b = key a) = [] := by
    refine List.filter_eq_nil_iff.mpr fun b hb => ?_
    simpa using hn.2.2 (key b) (List.mem_map_of_mem hb) (key a) (List.mem_cons_self ..)
  have hafter : after.filter (fun b => key b = key a) = [] := by
    refine List.filter_eq_nil_iff.mpr fun b hb => ?_
    have hne : key b ≠ key a := fun he => hn.2.1.1 (he ▸ List.mem_map_of_mem hb)
    simpa using hne
  simp [List.filter_append, hbefore, hafter]

theorem nodup_map_concat {α : Type} (key : α → Text) {l : List α} {a : α}
    (hn : (l.map key).Nodup) (ha : key a ∉ l.map key) : ((l ++ [a]).map key).Nodup := by
  rw [List.map_append, List.map_singleton, ← List.concat_eq_append]
  exact hn.concat ha

/-! ### The invariant -/

variable [Engine]

structure WellFormed (t : Table) : Prop where
  /-- The names in use are the names of the rules, in the same order. -/
  names_eq : t.names.map (·.1) = t.rules.map (·.name)
  distinct : (t.rules.map (·.name)).Nodup
  /-- The keyword map has the names that are in use for keywords, in the same order. -/
  keywords_eq : t.keywords.map (·.2.kind) = (t.names.filter (·.2 = .keyword)).map (·.1)
  literals_distinct : (t.keywords.map (·.1)).Nodup
  literal_ne : ∀ e ∈ t.keywords, e.1 ≠ []
  /-- The token that stands for a keyword has its literal as text, and no place. -/
  token_eq : ∀ e ∈ t.keywords, e.2 = ⟨e.2.kind, e.1, -1, -1⟩
  /-- The rules of the keywords match their literals, and are in the same order. -/
  rules_sublist : (t.keywords.map fun e => Rule.mk e.2.kind (.literal e.1)).Sublist t.rules

theorem wellFormed_empty : WellFormed {} where
  names_eq := rfl
  distinct := by simp
  keywords_eq := rfl
  literals_distinct := by simp
  literal_ne := by simp
  token_eq := by simp
  rules_sublist := List.Sublist.refl []

namespace WellFormed
variable {t : Table}

theorem addIgnored (h : t.WellFormed) (p : Pattern) : (t.addIgnored p).WellFormed := { h with }

/-- The names after a rule or keyword is added under a name that was not in use. -/
theorem distinct_concat (h : t.WellFormed) {name : Text} (hname : t.names.lookup name = none)
    (p : Pattern) : ((t.rules ++ [Rule.mk name p]).map (·.name)).Nodup := by
  refine nodup_map_concat Rule.name h.distinct ?_
  rw [← h.names_eq]
  exact notMem_of_lookup hname

theorem addRule (h : t.WellFormed) {name : Text} (hname : t.names.lookup name = none)
    (p : Pattern) : (t.addRule name .rule p).WellFormed where
  names_eq := by simp [Table.addRule, h.names_eq]
  distinct := h.distinct_concat hname p
  keywords_eq := by simp [Table.addRule, h.keywords_eq]
  literals_distinct := h.literals_distinct
  literal_ne := h.literal_ne
  token_eq := h.token_eq
  rules_sublist := h.rules_sublist.trans (List.sublist_append_left _ _)

theorem addKeyword (h : t.WellFormed) {name literal : Text}
    (hname : t.names.lookup name = none) (hliteral : t.keywords.lookup literal = none)
    (hne : literal ≠ []) : (t.addKeyword name literal).WellFormed where
  names_eq := by simp [Table.addKeyword, Table.addRule, h.names_eq]
  distinct := h.distinct_concat hname (.literal literal)
  keywords_eq := by simp [Table.addKeyword, Table.addRule, h.keywords_eq]
  literals_distinct := nodup_map_concat Prod.fst h.literals_distinct (notMem_of_lookup hliteral)
  literal_ne := by
    refine List.forall_mem_append.mpr ⟨h.literal_ne, ?_⟩
    simpa using hne
  token_eq := by
    refine List.forall_mem_append.mpr ⟨h.token_eq, ?_⟩
    simp
  rules_sublist := by
    simp only [Table.addKeyword, Table.addRule, List.map_append, List.map_singleton]
    exact h.rules_sublist.append_right _

/-! ### What follows -/

theorem names_nodup (h : t.WellFormed) : (t.names.map (·.1)).Nodup := h.names_eq ▸ h.distinct

theorem kinds_nodup (h : t.WellFormed) : (t.keywords.map (·.2.kind)).Nodup := by
  have hkinds := h.rules_sublist.map Rule.name
  rw [List.map_map] at hkinds
  exact h.distinct.sublist hkinds

/-- A keyword has one rule of its name, which matches its literal. -/
theorem rules_of_kind (h : t.WellFormed) {e : Text × Token} (he : e ∈ t.keywords) :
    t.rules.filter (fun r => r.name = e.2.kind) = [⟨e.2.kind, .literal e.1⟩] := by
  have hmem : ⟨e.2.kind, .literal e.1⟩ ∈ t.rules :=
    h.rules_sublist.subset (List.mem_map_of_mem he)
  exact filter_key Rule.name h.distinct hmem

/-- A keyword's name is in use for a keyword. -/
theorem lookup_kind (h : t.WellFormed) {e : Text × Token} (he : e ∈ t.keywords) :
    t.names.lookup e.2.kind = some .keyword := by
  have hkind : e.2.kind ∈ t.keywords.map (·.2.kind) := List.mem_map_of_mem he
  rw [h.keywords_eq] at hkind
  obtain ⟨⟨name, registered⟩, hmem, hname⟩ := List.mem_map.mp hkind
  obtain ⟨hin, hkeyword⟩ := List.mem_filter.mp hmem
  simp only [decide_eq_true_eq] at hkeyword hname
  rw [← hname]
  exact lookup_of_mem h.names_nodup (hkeyword ▸ hin)

/-- A name in use for a keyword has one entry in the keyword map. -/
theorem keywords_of_name (h : t.WellFormed) {name : Text}
    (hname : t.names.lookup name = some .keyword) :
    ∃ e, t.keywords.filter (fun e => e.2.kind = name) = [e] := by
  have hmem : name ∈ (t.names.filter (·.2 = .keyword)).map (·.1) :=
    List.mem_map.mpr ⟨(name, .keyword), List.mem_filter.mpr ⟨mem_of_lookup hname, by simp⟩, rfl⟩
  rw [← h.keywords_eq] at hmem
  obtain ⟨e, he, rfl⟩ := List.mem_map.mp hmem
  exact ⟨e, filter_key (fun e => e.2.kind) h.kinds_nodup he⟩

theorem value_of_lookup (h : t.WellFormed) {literal : Text} {token : Token}
    (hl : t.keywords.lookup literal = some token) : token.value = literal :=
  congrArg Token.value (h.token_eq _ (mem_of_lookup hl))

/-- A new label leaves the text as it is. -/
theorem relabel_value (h : t.WellFormed) (r : Rule) (value : Text) :
    (t.relabel r value).2 = value := by
  rw [relabel]
  cases hl : t.keywords.lookup value with
  | none => rfl
  | some token => exact h.value_of_lookup hl

end WellFormed

/-! ### Growth -/

theorem Registers.wellFormed {t t' : Table} {r : Registration} {record : Record}
    (hr : Registers t r t' record) (h : t.WellFormed) : t'.WellFormed := by
  cases hr with
  | ignore _ => exact h.addIgnored _
  | rule hname _ => exact h.addRule hname _
  | keyword _ hname hliteral hne => exact h.addKeyword hname hliteral hne

/-- **Growth keeps names, rules and keywords in step.** -/
theorem Grows.wellFormed {t t' : Table} (h : Grows t t') (ht : t.WellFormed) : t'.WellFormed :=
  h.preserves (fun _ _ _ _ hr => hr.wellFormed) ht

theorem afterAll_wellFormed (registrations : List Registration) :
    (({} : Table).afterAll registrations).WellFormed :=
  (afterAll_grows {} registrations).wellFormed wellFormed_empty

end Munch.Table
