import Munch.Proofs.Scan.Calls
import Munch.Proofs.Text.Position

/-! What lexing is, without a scan.

At an offset of a text, a table cuts off a piece (`Lexeme`), or there is nothing left,
or it is stuck (`Stuck`), or a pattern fails (`Fails`). `Lexes` is to cut off piece after
piece, and `Ends` how that may end. All of it is said of the text and the offset alone, and
no choice is left (`Lexes.unique`). -/
namespace Munch

/-- The beginning of a text up to a length, or up to a place before its end if the
length is negative. -/
def Text.slice (text : Text) : Option Int → Text
  | none => text
  | some length => text.take (if 0 ≤ length then length else text.length + length).toNat

theorem Scan.preview_eq (s : Scan) (length : Option Int) :
    s.preview length = s.remaining.slice length := by
  cases length with
  | none => rfl
  | some length =>
    cases length with
    | ofNat n =>
      rw [preview, Text.slice, if_pos (show (0 : Int) ≤ Int.ofNat n from Int.natCast_nonneg n)]
      rfl
    | negSucc n =>
      have hlength : ((s.remaining.length : Int) + Int.negSucc n).toNat =
          s.remaining.length - (n + 1) := by omega
      rw [preview, Text.slice, if_neg (Int.negSucc_not_nonneg n).mp, hlength]

namespace Table
variable [Engine] {t : Table} {previewLength : Option Int} {text : Text}

/-- The kind of a text that a rule has matched: the name of the keyword whose literal
it is, or else the name of the rule. -/
inductive Labels (t : Table) (r : Rule) (value : Text) : Text → Prop
  | keyword {e} : e ∈ t.keywords → e.1 = value → Labels t r value e.2.kind
  | rule : (∀ e ∈ t.keywords, e.1 ≠ value) → Labels t r value r.name

/-- The token of kind `kind` for the `n` characters at an offset, or those that there
are. -/
def tokenAt (kind : Text) (text : Text) (offset n : Nat) : Token :=
  let place := Position.ofText (text.take offset)
  ⟨kind, ((text.drop offset).take n), place.line, place.column⟩

/-- The piece that is cut off at an offset, and the offset after it. A pattern to
ignore comes before any rule. -/
inductive Lexeme (t : Table) (text : Text) (offset : Nat) : Piece → Nat → Prop
  | ignored {n : Nat} : offset < text.length → First text offset t.ignored n →
      Lexeme t text offset (.ignored ((text.drop offset).take n)) (offset + n)
  | token {r n kind} : offset < text.length → (∀ p ∈ t.ignored, Idle text offset p) →
      Wins text offset t.rules r n →
      Labels t r ((text.drop offset).take n) kind →
      Lexeme t text offset (.token (tokenAt kind text offset n)) (offset + n)

/-- Lexing from an offset to another one cuts off pieces. -/
inductive Lexes (t : Table) (text : Text) : Nat → List Piece → Nat → Prop
  | nil {offset} : Lexes t text offset [] offset
  | cons {offset piece offset' pieces last} : Lexeme t text offset piece offset' →
      Lexes t text offset' pieces last → Lexes t text offset (piece :: pieces) last

/-- There is text left, and nothing in the table matches any of it. -/
structure Stuck (t : Table) (text : Text) (offset : Nat) : Prop where
  before : offset < text.length
  idle : ∀ p ∈ t.ignored, Idle text offset p
  unmatched : ∀ r ∈ t.rules, AtMost text offset 0 r

/-- The error that no rule matches the text at an offset. -/
def unmatchedAt (text : Text) (previewLength : Option Int) (offset : Nat) : Error :=
  .unmatched (Text.slice (text.drop offset) previewLength)
    (Position.ofText (text.take offset))

/-- A pattern that is asked at an offset fails. A pattern to ignore is asked if those before it
are idle, and a rule if all of these are idle and the rules before it answer. -/
inductive Fails (t : Table) (text : Text) (offset : Nat) : Failure → Prop
  | ignored {before p after f} : t.ignored = before ++ p :: after →
      (∀ q ∈ before, Idle text offset q) → p.check text offset = .error f →
      Fails t text offset f
  | rule {before r after f} : (∀ p ∈ t.ignored, Idle text offset p) →
      t.rules = before ++ r :: after →
      (∀ q ∈ before, ∃ answer, q.pattern.check text offset = .ok answer) →
      r.pattern.check text offset = .error f → Fails t text offset f

/-- Lexing ends where there is no text left, where it is stuck, or where a pattern fails. -/
inductive Ends (t : Table) (previewLength : Option Int) (text : Text) (offset : Nat) :
    Option Error → Prop
  | finish : text.length ≤ offset → Ends t previewLength text offset none
  | stuck : Stuck t text offset →
      Ends t previewLength text offset (some (unmatchedAt text previewLength offset))
  | fails {f} : offset < text.length → Fails t text offset f →
      Ends t previewLength text offset (some (.failure f))

theorem Lexes.append {offset offset' last : Nat} {ps qs : List Piece}
    (h : Lexes t text offset ps offset') (h' : Lexes t text offset' qs last) :
    Lexes t text offset (ps ++ qs) last := by
  induction h with
  | nil => exact h'
  | cons hp _ ih => exact .cons hp (ih h')

/-! ### Kinds -/

theorem Labels.exists_rule (ht : t.WellFormed) {r : Rule} (hr : r ∈ t.rules) {value kind : Text}
    (h : Labels t r value kind) : ∃ q ∈ t.rules, q.name = kind := by
  cases h with
  | keyword he _ => exact ⟨_, ht.rules_sublist.subset (List.mem_map_of_mem he), rfl⟩
  | rule _ => exact ⟨r, hr, rfl⟩

/-- The kinds of tokens are names of rules. -/
theorem Lexes.exists_rule (ht : t.WellFormed) {offset last : Nat} {ps : List Piece}
    (h : Lexes t text offset ps last) {token : Token} (htoken : .token token ∈ ps) :
    ∃ q ∈ t.rules, q.name = token.kind := by
  induction h with
  | nil => cases htoken
  | cons hp _ ih =>
    rcases List.mem_cons.mp htoken with rfl | hrest
    · cases hp with
      | token _ _ hwins hlabels =>
        obtain ⟨i, hr, -⟩ := hwins
        exact hlabels.exists_rule ht (List.mem_of_getElem? hr)
    · exact ih hrest

/-! ### There is no choice -/

theorem Labels.unique (ht : t.WellFormed) {r : Rule} {value kind kind' : Text}
    (h : Labels t r value kind) (h' : Labels t r value kind') : kind = kind' := by
  cases h with
  | @keyword e he hvalue =>
    cases h' with
    | @keyword e' he' hvalue' =>
      have hlookup := lookup_of_mem ht.literals_distinct he
      rw [hvalue, ← hvalue', lookup_of_mem ht.literals_distinct he'] at hlookup
      exact congrArg Token.kind (Option.some.inj hlookup).symm
    | rule hnone => exact absurd hvalue (hnone e he)
  | rule hnone =>
    cases h' with
    | @keyword e' he' hvalue' => exact absurd hvalue' (hnone e' he')
    | rule _ => rfl

theorem Lexeme.unique (ht : t.WellFormed) {offset next next' : Nat} {p q : Piece}
    (h : Lexeme t text offset p next) (h' : Lexeme t text offset q next') :
    p = q ∧ next = next' := by
  cases h with
  | @ignored n _ hfirst =>
    cases h' with
    | @ignored m _ hfirst' =>
      have hnm : n = m := Int.ofNat_inj.mp (hfirst.unique hfirst')
      exact ⟨by rw [hnm], by rw [hnm]⟩
    | token _ hidle _ _ => exact absurd hidle hfirst.not_idle
  | token _ hidle hwins hlabels =>
    cases h' with
    | ignored _ hfirst' => exact absurd hidle hfirst'.not_idle
    | token _ _ hwins' hlabels' =>
      obtain ⟨rfl, rfl⟩ := hwins.unique hwins'
      obtain rfl := hlabels.unique ht hlabels'
      exact ⟨rfl, rfl⟩

theorem Fails.unique {offset : Nat} {f f' : Failure} (h : Fails t text offset f)
    (h' : Fails t text offset f') : f = f' := by
  cases h with
  | ignored hlist hbefore hp =>
    have hlength := firstLength_of_error hlist hbefore hp
    cases h' with
    | ignored hlist' hbefore' hp' =>
      exact Except.error.inj (hlength.symm.trans (firstLength_of_error hlist' hbefore' hp'))
    | rule hidle _ _ _ => cases hlength.symm.trans (firstLength_of_idle hidle)
  | rule hidle hlist hbefore hr =>
    cases h' with
    | ignored hlist' hbefore' hp' =>
      cases (firstLength_of_idle hidle).symm.trans (firstLength_of_error hlist' hbefore' hp')
    | rule _ hlist' hbefore' hr' =>
      have hlongest := longestFrom_of_error hlist hbefore hr none
      have hlongest' := longestFrom_of_error hlist' hbefore' hr' none
      exact Except.error.inj (hlongest.symm.trans hlongest')

/-- Where a pattern fails, nothing is ignored. -/
theorem Fails.not_first {offset : Nat} {f : Failure} {n : Int} (h : Fails t text offset f)
    (hfirst : First text offset t.ignored n) : False := by
  cases h with
  | ignored hlist hbefore hp =>
    cases hfirst.length_eq.symm.trans (firstLength_of_error hlist hbefore hp)
  | rule hidle _ _ _ => exact hfirst.not_idle hidle

/-- Where a pattern fails, one to ignore is not idle or a rule does not answer. -/
theorem Fails.not_answers {offset : Nat} {f : Failure} (h : Fails t text offset f)
    (hidle : ∀ p ∈ t.ignored, Idle text offset p)
    (hrules : ∀ r ∈ t.rules, ∃ answer, r.pattern.check text offset = .ok answer) : False := by
  cases h with
  | @ignored before p after _ hlist _ hp =>
    obtain ⟨answer, hanswer, -⟩ := hidle p (by simp [hlist])
    cases hp.symm.trans hanswer
  | @rule before r after _ _ hlist _ hr =>
    obtain ⟨answer, hanswer⟩ := hrules r (by simp [hlist])
    cases hr.symm.trans hanswer

theorem Wins.answers {rules : List Rule} {offset : Int} {r : Rule} {n : Nat}
    (h : Wins text offset rules r n) :
    ∀ q ∈ rules, ∃ answer, q.pattern.check text offset = .ok answer := by
  obtain ⟨-, -, -, -, hmost, -⟩ := h
  intro q hq
  obtain ⟨answer, hanswer, -⟩ := hmost q hq
  exact ⟨answer, hanswer⟩

theorem Stuck.not_fails {offset : Nat} {f : Failure} (h : Stuck t text offset)
    (hfails : Fails t text offset f) : False := by
  refine hfails.not_answers h.idle fun r hr => ?_
  obtain ⟨answer, hanswer, -⟩ := h.unmatched r hr
  exact ⟨answer, hanswer⟩

theorem Lexeme.not_ends {offset next : Nat} {p : Piece} (h : Lexeme t text offset p next)
    (stop : Option Error) : ¬ Ends t previewLength text offset stop := by
  intro hend
  cases h with
  | ignored hbefore hfirst =>
    cases hend with
    | finish hlength => omega
    | stuck hstuck => exact hfirst.not_idle hstuck.idle
    | fails _ hfails => exact hfails.not_first hfirst
  | token hbefore hidle hwins _ =>
    cases hend with
    | finish hlength => omega
    | stuck hstuck => exact hwins.not_atMost_zero hstuck.unmatched
    | fails _ hfails => exact hfails.not_answers hidle hwins.answers

theorem Ends.unique {offset : Nat} {stop stop' : Option Error}
    (h : Ends t previewLength text offset stop) (h' : Ends t previewLength text offset stop') :
    stop = stop' := by
  cases h with
  | finish hlength =>
    cases h' with
    | finish _ => rfl
    | stuck hstuck => exact absurd hstuck.before (by omega)
    | fails hbefore _ => omega
  | stuck hstuck =>
    cases h' with
    | finish hlength => exact absurd hstuck.before (by omega)
    | stuck _ => rfl
    | fails _ hfails => exact (hstuck.not_fails hfails).elim
  | fails hbefore hfails =>
    cases h' with
    | finish hlength => omega
    | stuck hstuck => exact (hstuck.not_fails hfails).elim
    | fails _ hfails' => rw [hfails.unique hfails']

/-- **Lexing has one result.** -/
theorem Lexes.unique (ht : t.WellFormed) {offset last last' : Nat} {ps qs : List Piece}
    {stop stop' : Option Error} (h : Lexes t text offset ps last)
    (hend : Ends t previewLength text last stop) (h' : Lexes t text offset qs last')
    (hend' : Ends t previewLength text last' stop') :
    ps = qs ∧ last = last' ∧ stop = stop' := by
  induction h generalizing qs with
  | nil =>
    cases h' with
    | nil => exact ⟨rfl, rfl, hend.unique hend'⟩
    | cons hq _ => exact absurd hend (hq.not_ends stop)
  | cons hp _ ih =>
    cases h' with
    | nil => exact absurd hend' (hp.not_ends stop')
    | cons hq hrest' =>
      obtain ⟨rfl, rfl⟩ := hp.unique ht hq
      obtain ⟨rfl, hlast⟩ := ih hend hrest'
      exact ⟨rfl, hlast⟩

end Table
end Munch
