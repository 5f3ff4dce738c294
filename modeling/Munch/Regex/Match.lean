import Munch.Regex.Expr
import Munch.Text.Position

/-! How a regular expression matches.

The expression is tried against the text at one place, by backtracking: `Expr.run` is given what
is to follow the match, and when that fails it tries the next way to match. A place is a `Spot`,
which also holds what the groups have matched so far. Matching never moves back: what follows is
always given a spot with no more text left than before, and a repetition tries its body again only
when the last round took some text. The search therefore ends on every text.

`Expr.matchLength?` is the length of the first match at an offset. -/
namespace Munch.Regex

/-! ### Places in the text -/

/-- Where the groups began and ended, the last entry of a group first. -/
structure Marks where
  starts : List (Nat × Nat) := []
  ends : List (Nat × Nat) := []

/-- The part of the text that a group matched last. A group that has begun again and not ended
counts by its old end, if that does not lie before the new beginning. -/
def Marks.span? (m : Marks) (n : Nat) : Option (Nat × Nat) := do
  let first ← m.starts.lookup n
  let last ← m.ends.lookup n
  if first ≤ last then some (first, last) else none

/-- A place in the text: its offset, the character before it, the text after it and the length of
that, and the groups. -/
structure Spot where
  offset : Nat
  before : Option Point
  rest : Text
  left : Nat
  marks : Marks

namespace Spot

/-- The place at an offset of the text. -/
def ofOffset (text : Text) (offset : Nat) (marks : Marks) : Spot :=
  { offset
    before := if offset = 0 then none else text[offset - 1]?
    rest := text.drop offset
    left := text.length - offset
    marks }

/-- The place `n` characters on. -/
def skip (s : Spot) (n : Nat) : Spot :=
  { s with
    offset := s.offset + n
    before := (s.rest.take n).getLast?.or s.before
    rest := s.rest.drop n
    left := s.left - n }

theorem skip_le (s : Spot) (n : Nat) : (s.skip n).left ≤ s.left := Nat.sub_le _ _

def openGroup (s : Spot) (n : Nat) : Spot :=
  { s with marks := { s.marks with starts := (n, s.offset) :: s.marks.starts } }

def closeGroup (s : Spot) (n : Nat) : Spot :=
  { s with marks := { s.marks with ends := (n, s.offset) :: s.marks.ends } }

end Spot

/-- The places that a match from `s` may lead to. -/
abbrev After (s : Spot) : Type := { t : Spot // t.left ≤ s.left }

/-- What is to follow a match from `s`. -/
abbrev Follow (s : Spot) (α : Type) : Type :=
  (t : Spot) → t.left ≤ s.left → Option α

def Anchor.holds (text : Text) (s : Spot) : Anchor → Bool
  | .textStart => s.offset == 0
  | .lineStart => s.offset == 0 || s.before == some (.char '\n')
  | .textEnd => s.rest.isEmpty
  | .lastLineEnd => s.rest.isEmpty || s.rest == [.char '\n']
  | .lineEnd => s.rest.isEmpty || s.rest.head? == some (.char '\n')
  | .wordEdge ascii complement =>
    let inWord (c : Option Point) : Bool := c.any (Class.word.holds ascii)
    !text.isEmpty && (inWord s.before != inWord s.rest.head?) != complement

/-- Whether `text` begins with `part`, as far as `folding` tells letters apart. -/
def beginsWith (folding : Folding) (text part : Text) : Bool :=
  match part, text with
  | [], _ => true
  | _ :: _, [] => false
  | a :: part, b :: text => folding.lower a == folding.lower b && beginsWith folding text part

/-! ### Repetition -/

section Repetition
variable {α : Type} {origin : Spot}

/-- `count` rounds of the body from `s`, a place after `origin`, before what follows `origin`. -/
def exactly (body : (s : Spot) → Follow s α → Option α) (k : Follow origin α) :
    (count : Nat) → (s : Spot) → s.left ≤ origin.left → Option α
  | 0, s, hs => k s hs
  | count + 1, s, hs => body s fun t h => exactly body k count t (Nat.le_trans h hs)

/-- Further rounds of the body, at most `limit`, before what follows. A round that takes no text
is the last one. The bound `n` is above the text that is left. -/
def further (eager : Bool) (body : (s : Spot) → Follow s α → Option α) (k : Follow origin α) :
    (n : Nat) → (limit : Option Nat) → (s : Spot) → s.left ≤ origin.left → s.left < n → Option α
  | 0, _, _, _, hn => absurd hn (Nat.not_lt_zero _)
  | n + 1, limit, s, hs, hn =>
    if limit = some 0 then k s hs
    else
      let again (_ : Unit) : Option α := body s fun t h =>
        if shorter : t.left < s.left then
          further eager body k n (limit.map (· - 1)) t (Nat.le_trans h hs) (by omega)
        else k t (Nat.le_trans h hs)
      if eager then (again ()).or (k s hs) else (k s hs).or (again ())

/-- `count` rounds of a body that matches in one way only. -/
def exactlyOnce (body : (s : Spot) → Option (After s)) :
    (count : Nat) → (s : Spot) → Option (After s)
  | 0, s => some ⟨s, Nat.le_refl _⟩
  | count + 1, s => do
    let ⟨t, h⟩ ← body s
    let ⟨u, hu⟩ ← exactlyOnce body count t
    some ⟨u, Nat.le_trans hu h⟩

/-- As many further rounds of such a body as there are, at most `limit`. -/
def furthest (body : (s : Spot) → Option (After s)) :
    (n : Nat) → (limit : Option Nat) → (s : Spot) → s.left < n → After s
  | 0, _, _, hn => absurd hn (Nat.not_lt_zero _)
  | n + 1, limit, s, hn =>
    if limit = some 0 then ⟨s, Nat.le_refl _⟩
    else match body s with
      | none => ⟨s, Nat.le_refl _⟩
      | some ⟨t, h⟩ =>
        if shorter : t.left < s.left then
          let ⟨u, hu⟩ := furthest body n (limit.map (· - 1)) t (by omega)
          ⟨u, Nat.le_trans hu h⟩
        else ⟨t, h⟩

end Repetition

/-! ### Matching -/

/-- Tries the expression at `s`, each way to match in turn, until `k` succeeds after it. -/
def Expr.run (text : Text) : (e : Expr) → {α : Type} → (s : Spot) → Follow s α → Option α
  | .empty, _, s, k => k s (Nat.le_refl _)
  | .set c, _, s, k => if s.rest.head?.any c.holds then k (s.skip 1) (s.skip_le 1) else none
  | .anchor a, _, s, k => if a.holds text s then k s (Nat.le_refl _) else none
  | .seq a b, _, s, k => a.run text s fun t h => b.run text t fun u hu => k u (Nat.le_trans hu h)
  | .alt a b, _, s, k => (a.run text s k).or (b.run text s k)
  | .group n e, _, s, k => e.run text (s.openGroup n) fun t h => k (t.closeGroup n) h
  | .reference n folding, _, s, k =>
    match s.marks.span? n with
    | none => none
    | some (first, last) =>
      let part := (text.drop first).take (last - first)
      if beginsWith folding s.rest part then k (s.skip part.length) (s.skip_le _) else none
  | .choice n yes no, _, s, k =>
    if (s.marks.span? n).isSome then yes.run text s k else no.run text s k
  | .ahead e complement, _, s, k =>
    let found : Option (After s) := e.run text s fun t h => some ⟨t, h⟩
    match found, complement with
    | none, true => k s (Nat.le_refl _)
    | some ⟨t, _⟩, false => k { s with marks := t.marks } (Nat.le_refl _)
    | _, _ => none
  | .behind width e complement, _, s, k =>
    if s.offset < width then if complement then k s (Nat.le_refl _) else none
    else
      let start := Spot.ofOffset text (s.offset - width) s.marks
      let found : Option (After start) := e.run text start fun t h => some ⟨t, h⟩
      match found, complement with
      | none, true => k s (Nat.le_refl _)
      | some ⟨t, _⟩, false => k { s with marks := t.marks } (Nat.le_refl _)
      | _, _ => none
  | .atomic e, _, s, k =>
    let found : Option (After s) := e.run text s fun t h => some ⟨t, h⟩
    match found with
    | none => none
    | some ⟨t, h⟩ => k t h
  | .repeated mode least most e, _, s, k =>
    let limit := most.map (· - least)
    match mode with
    | .possessive =>
      let body (s : Spot) : Option (After s) := e.run text s fun t h => some ⟨t, h⟩
      match exactlyOnce body least s with
      | none => none
      | some ⟨t, h⟩ =>
        let ⟨u, hu⟩ := furthest body (t.left + 1) limit t (Nat.lt_succ_self _)
        k u (Nat.le_trans hu h)
    | mode =>
      let body (s : Spot) (k : Follow s _) := e.run text s k
      let rounds : Follow s _ := fun t h =>
        further (mode == .greedy) body k (t.left + 1) limit t h (Nat.lt_succ_self _)
      exactly body rounds least s (Nat.le_refl _)

/-- The length of the first match of the expression at an offset of the text. -/
def Expr.matchLength? (e : Expr) (text : Text) (offset : Nat) : Option Nat :=
  let s := Spot.ofOffset text offset {}
  let found : Option (After s) := e.run text s fun t h => some ⟨t, h⟩
  found.map fun ⟨t, _⟩ => s.left - t.left

theorem Expr.matchLength?_le {e : Expr} {text : Text} {offset length : Nat}
    (h : e.matchLength? text offset = some length) : length ≤ text.length - offset := by
  simp only [matchLength?, Option.map_eq_some_iff] at h
  obtain ⟨_, _, rfl⟩ := h
  exact Nat.sub_le _ _

end Munch.Regex
