import Munch.Regex.Flags
import Munch.Regex.Source
import Munch.Regex.Width

/-! What is being read of a regular expression: the pieces and branches so far, the groups that are
open, and what has to be known of the groups that are closed.

An open group is a `Frame` that remembers the `Level` around it. A closing parenthesis turns the
innermost level into one piece of the level around it. -/
namespace Munch.Regex

/-- Whether a quantifier may follow a piece. -/
inductive Role
  | condition
  | quantified
  | plain
deriving DecidableEq, Repr

structure Piece where
  expr : Expr
  role : Role := .plain

/-- An alternation that is being read: the flags in force, the branches that are complete and the
pieces of the last one, latest first. -/
structure Level where
  flags : Flags
  branches : List Expr := []
  pieces : List Piece := []

namespace Level

/-- The sequence of the last branch's pieces. -/
def branch (l : Level) : Expr :=
  match l.pieces with
  | [] => .empty
  | p :: pieces => pieces.foldl (fun e p => .seq p.expr e) p.expr

def expr (l : Level) : Expr := l.branches.foldl (fun e b => .alt b e) l.branch

def push (l : Level) (e : Expr) (role : Role := .plain) : Level :=
  { l with pieces := ⟨e, role⟩ :: l.pieces }

/-- Begins another branch. -/
def nextBranch (l : Level) : Level := { l with branches := l.branch :: l.branches, pieces := [] }

def isFresh (l : Level) : Bool := l.branches.isEmpty && l.pieces.isEmpty

end Level

/-- What an open parenthesis begins. -/
inductive Opening
  | capture (n : Nat)
  | plain
  | atomic
  | ahead (complement : Bool)
  /-- `outermost` tells that no other look-behind is around this one. -/
  | behind (complement outermost : Bool)
  /-- A choice by group `n`, with its first branch if that is complete. -/
  | choice (n : Nat) (yes : Option Expr)

/-- An open group: what it is, where it begins, and the level around it. -/
structure Frame where
  opening : Opening
  start : Nat
  outer : Level

/-- The groups of a source: the number of the next one, the widths of those that are closed, their
names, and, in a look-behind, the first number not given outside of it. -/
structure Groups where
  next : Nat := 1
  closed : List (Nat × Width) := []
  names : List (Text × Nat) := []
  inner : Option Nat := none

namespace Groups

def isClosed (g : Groups) (n : Nat) : Bool := (g.closed.lookup n).isSome

def width (g : Groups) (n : Nat) : Width := (g.closed.lookup n).getD ⟨0, 0⟩

/-- A look-behind may refer to groups only that are closed before it begins. -/
def checkLookBehind (g : Groups) (n : Nat) : Reading Unit := do
  if let some first := g.inner then
    if !g.isClosed n then Reading.fail .openGroup
    if first ≤ n then Reading.fail .groupOfSameLookBehind

end Groups

/-- Everything read so far. Groups that a choice asks for by number may be given later, so they are
kept with the offsets of the numbers; `isVariable` tells that a look-behind has no fixed width. -/
structure Progress where
  level : Level
  frames : List Frame := []
  groups : Groups := {}
  asked : List (Nat × Nat) := []
  isVariable : Bool := false

namespace Progress

def flags (p : Progress) : Flags := p.level.flags

def push (p : Progress) (e : Expr) (role : Role := .plain) : Progress :=
  { p with level := p.level.push e role }

def pushSet (p : Progress) (s : CharSet) : Progress := p.push (.set s)

def pushCode (p : Progress) (code : Nat) : Progress := p.pushSet (.single code p.flags.folding)

def pushAnchor (p : Progress) (a : Anchor) : Progress := p.push (.anchor a) .condition

/-- Opens a group at `start`. -/
def enter (p : Progress) (opening : Opening) (start : Nat) (flags : Flags) : Progress :=
  { p with level := { flags }, frames := ⟨opening, start, p.level⟩ :: p.frames }

/-! ### Closing a group -/

/-- What the group that is read to its end stands for, or nothing for a look-behind of no fixed
width. -/
def closed? (p : Progress) : Opening → Option Expr
  | .capture n => some (.group n p.level.expr)
  | .plain => some p.level.expr
  | .atomic => some (.atomic p.level.expr)
  | .ahead complement => some (.ahead p.level.expr complement)
  | .behind complement _ =>
    (p.level.expr.width p.groups.width).fixed?.map (.behind · p.level.expr complement)
  | .choice n none => some (.choice n p.level.branch .empty)
  | .choice n (some yes) => some (.choice n yes p.level.branch)

/-- The groups after the end of one. -/
def groupsAfter (p : Progress) : Opening → Groups
  | .capture n =>
    { p.groups with closed := (n, p.level.expr.width p.groups.width) :: p.groups.closed }
  | .behind _ true => { p.groups with inner := none }
  | _ => p.groups

/-- Closes the group of the frame, the first of `p.frames`. -/
def leave (p : Progress) (f : Frame) : Progress :=
  let e? := p.closed? f.opening
  { p with
    level := f.outer.push (e?.getD .empty)
    frames := p.frames.tail
    groups := p.groupsAfter f.opening
    isVariable := p.isVariable || e?.isNone }

/-- Ends a branch, before the bar that follows it. -/
def nextBranch (p : Progress) : Reading Progress := do
  match p.frames with
  | ⟨.choice n none, start, outer⟩ :: frames =>
    return { p with
      level := { p.level with pieces := [] }
      frames := ⟨.choice n (some p.level.branch), start, outer⟩ :: frames }
  | ⟨.choice _ (some _), _, _⟩ :: _ => Reading.fail .tooManyBranches
  | _ => return { p with level := p.level.nextBranch }

end Progress
end Munch.Regex
