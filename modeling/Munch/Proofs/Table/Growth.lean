import Munch.Table.Registration

/-! How tables grow.

A registration that is accepted adds one pattern, one rule or one keyword, and
`Registers` says which and when. A table `Grows` by registrations, as many as it
takes; the tables that grow out of the empty one are those there are. Growth adds
at the end of the lists and changes nothing else (`Grows.extends`). -/
namespace Munch

/-- A computation that gives a value gives one in each of its steps. -/
theorem bind_ok {ε α β : Type} {m : Except ε α} {k : α → Except ε β} {b : β}
    (h : (m >>= k) = .ok b) : ∃ a, m = .ok a ∧ k a = .ok b := by
  cases m with
  | error e => cases h
  | ok a => exact ⟨a, rfl, h⟩

namespace Table

/-! ### One registration -/

variable [Engine]

def addIgnored (t : Table) (p : Pattern) : Table := { t with ignored := t.ignored ++ [p] }

def addKeyword (t : Table) (name literal : Text) : Table :=
  { t.addRule name .keyword (.literal literal) with
    keywords := t.keywords ++ [(literal, ⟨name, literal, -1, -1⟩)] }

/-- The registrations that a table accepts, what it is then, and what goes on
record. -/
inductive Registers (t : Table) : Registration → Table → Record → Prop
  | ignore {spec p} : spec.compile = .ok p →
      Registers t (.ignore spec) (t.addIgnored p) (.ignore spec.shown)
  | rule {name spec p} : t.names.lookup name.plain = none → spec.compile = .ok p →
      Registers t (.rule name spec) (t.addRule name.plain .rule p) (.rule name.plain p.shown)
  | keyword {name literal n l} : keywordTexts name literal = .ok (n, l) →
      t.names.lookup n = none → t.keywords.lookup l = none → l ≠ [] →
      Registers t (.keyword name literal) (t.addKeyword n l)
        (.keyword n (Pattern.literal l).shown)

theorem checkUnused_ok {t : Table} {name : Text} {u : Unit}
    (h : t.checkUnused name = .ok u) : t.names.lookup name = none := by
  rw [checkUnused] at h
  cases hl : t.names.lookup name with
  | none => rfl
  | some kind =>
    rw [hl] at h
    cases h

theorem ofLiteral_ok {l : Text} {p : Pattern} (h : Pattern.ofLiteral (some l) = .ok p) :
    l ≠ [] ∧ p = .literal l := by
  by_cases hl : l = []
  · simp [Pattern.ofLiteral, hl] at h
  · simp only [Pattern.ofLiteral, if_neg hl] at h
    exact ⟨hl, (Except.ok.inj h).symm⟩

theorem registers_of_ok {t t' : Table} {r : Registration} {record : Record}
    (h : t.register r = .ok (t', record)) : Registers t r t' record := by
  cases r with
  | ignore spec =>
    obtain ⟨p, hp, hend⟩ := bind_ok h
    cases hend
    exact .ignore hp
  | rule name spec =>
    obtain ⟨u, hu, h⟩ := bind_ok h
    obtain ⟨p, hp, hend⟩ := bind_ok h
    cases hend
    exact .rule (checkUnused_ok hu) hp
  | keyword name literal =>
    obtain ⟨⟨n, l⟩, hnl, h⟩ := bind_ok h
    obtain ⟨u, hu, h⟩ := bind_ok h
    cases hk : t.keywords.lookup l with
    | some token =>
      rw [hk] at h
      cases h
    | none =>
      rw [hk] at h
      obtain ⟨p, hp, hend⟩ := bind_ok h
      obtain ⟨hl, rfl⟩ := ofLiteral_ok hp
      cases hend
      exact .keyword hnl (checkUnused_ok hu) hk hl

theorem checkUnused_of_lookup {t : Table} {name : Text} (h : t.names.lookup name = none) :
    t.checkUnused name = .ok () := by
  rw [checkUnused, h]

theorem Registers.ok {t t' : Table} {r : Registration} {record : Record}
    (h : Registers t r t' record) : t.register r = .ok (t', record) := by
  cases h with
  | ignore hp =>
    rw [register, Table.ignore, hp]
    rfl
  | rule hname hp =>
    rw [register, Table.rule, checkUnused_of_lookup hname, hp]
    rfl
  | @keyword _ _ n l htexts hname hliteral hne =>
    have hpattern : Pattern.ofLiteral (some l) = .ok (.literal l) := by
      rw [Pattern.ofLiteral, if_neg hne]
    simp only [register, Table.keyword, htexts, bind, Except.bind, checkUnused_of_lookup hname,
      hliteral, hpattern]
    rfl

/-! ### Any number of registrations -/

/-- A table grows into another one by registrations that it accepts. -/
inductive Grows : Table → Table → Prop
  | refl {t} : Grows t t
  | step {t t' t'' r record} : t.register r = .ok (t', record) → Grows t' t'' → Grows t t''

theorem Grows.trans {t t' t'' : Table} (h : Grows t t') (h' : Grows t' t'') : Grows t t'' := by
  induction h with
  | refl => exact h'
  | step hr _ ih => exact .step hr (ih h')

/-- What every accepted registration keeps is kept by growth. -/
theorem Grows.preserves {P : Table → Prop}
    (hP : ∀ t r t' record, Registers t r t' record → P t → P t') {t t' : Table}
    (h : Grows t t') (ht : P t) : P t' := by
  induction h with
  | refl => exact ht
  | step hr _ ih => exact ih (hP _ _ _ _ (registers_of_ok hr) ht)

/-- The table after a registration, which is what it was if it is refused. -/
def after (t : Table) (r : Registration) : Table :=
  match t.register r with
  | .ok (t', _) => t'
  | .error _ => t

/-- The table after registrations, of which some may be refused. -/
def afterAll (t : Table) (rs : List Registration) : Table := rs.foldl after t

theorem after_grows (t : Table) (r : Registration) : Grows t (t.after r) := by
  rw [after]
  cases h : t.register r with
  | error e => exact .refl
  | ok result => exact .step h .refl

theorem afterAll_grows (t : Table) (rs : List Registration) : Grows t (t.afterAll rs) := by
  induction rs generalizing t with
  | nil => exact .refl
  | cons r rest ih => exact (after_grows t r).trans (ih (t.after r))

/-- The lists of a table begin as those of another one. -/
structure Extends (t' t : Table) : Prop where
  ignored : t.ignored <+: t'.ignored
  rules : t.rules <+: t'.rules
  keywords : t.keywords <+: t'.keywords
  names : t.names <+: t'.names

theorem Extends.refl (t : Table) : t.Extends t :=
  ⟨List.prefix_rfl, List.prefix_rfl, List.prefix_rfl, List.prefix_rfl⟩

theorem Extends.trans {t t' t'' : Table} (h : t''.Extends t') (h' : t'.Extends t) :
    t''.Extends t :=
  ⟨h'.ignored.trans h.ignored, h'.rules.trans h.rules, h'.keywords.trans h.keywords,
    h'.names.trans h.names⟩

theorem Registers.extends {t t' : Table} {r : Registration} {record : Record}
    (h : Registers t r t' record) : t'.Extends t := by
  cases h with
  | ignore _ =>
    exact ⟨List.prefix_append .., List.prefix_rfl, List.prefix_rfl, List.prefix_rfl⟩
  | rule _ _ =>
    exact ⟨List.prefix_rfl, List.prefix_append .., List.prefix_rfl, List.prefix_append ..⟩
  | keyword _ _ _ _ =>
    exact ⟨List.prefix_rfl, List.prefix_append .., List.prefix_append .., List.prefix_append ..⟩

/-- **Tables only grow at the end.** -/
theorem Grows.extends {t t' : Table} (h : Grows t t') : t'.Extends t :=
  h.preserves (P := fun t' => t'.Extends t) (fun _ _ _ _ hr ht => hr.extends.trans ht) (.refl t)

end Table
end Munch
