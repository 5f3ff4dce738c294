import Munch.Text.Quoted

/-! Strict UTF-8. `decode` reads bytes as text, and a `Fault` says which bytes are not text and
why: a byte that starts no character, a character that the next byte does not continue, or one
that the end of the data cuts off. Overlong forms, surrogates and code points past U+10FFFF are
not text. -/
namespace Munch.Text.Utf8

inductive Reason
  | invalidStart
  | invalidContinuation
  | unexpectedEnd
deriving DecidableEq, Repr

/-- Bytes that are not text: the first of them, its offset, how many they are, and why. -/
structure Fault where
  byte : UInt8
  offset : Nat
  count : Nat
  reason : Reason
deriving DecidableEq, Repr

def Reason.message : Reason → String
  | .invalidStart => "invalid start byte"
  | .invalidContinuation => "invalid continuation byte"
  | .unexpectedEnd => "unexpected end of data"

def Fault.message (f : Fault) : Text :=
  let place : Text :=
    if f.count = 1 then
      "byte 0x" ++ Quoted.hexDigits f.byte.toNat 2 ++ s!" in position {f.offset}"
    else s!"bytes in position {f.offset}-{f.offset + f.count - 1}"
  "'utf-8' codec can't decode " ++ place ++ ": " ++ f.reason.message

/-- A character of several bytes, of which some are read: the first byte and its offset, how many
are read, how many are missing, the range that the next one must lie in, and the bits so far. -/
structure Pending where
  byte : UInt8
  offset : Nat
  read : Nat
  missing : Nat
  lowest : UInt8
  highest : UInt8
  bits : Nat

/-- The character that `byte` starts, unless it starts none. -/
def Pending.start? (byte : UInt8) (offset : Nat) : Option Pending :=
  let pending (missing : Nat) (lowest highest : UInt8) (bits : Nat) : Option Pending :=
    some ⟨byte, offset, 1, missing, lowest, highest, bits⟩
  if byte < 0xc2 then none
  else if byte < 0xe0 then pending 1 0x80 0xbf (byte.toNat - 0xc0)
  else if byte = 0xe0 then pending 2 0xa0 0xbf 0
  else if byte = 0xed then pending 2 0x80 0x9f 0xd
  else if byte < 0xf0 then pending 2 0x80 0xbf (byte.toNat - 0xe0)
  else if byte = 0xf0 then pending 3 0x90 0xbf 0
  else if byte < 0xf4 then pending 3 0x80 0xbf (byte.toNat - 0xf0)
  else if byte = 0xf4 then pending 3 0x80 0x8f 4
  else none

def Pending.fault (p : Pending) (reason : Reason) : Fault := ⟨p.byte, p.offset, p.read, reason⟩

/-- Reads the bytes from `offset` on, after the part of a character. -/
def decodeFrom (offset : Nat) : Option Pending → List UInt8 → Except Fault (List Char)
  | none, [] => .ok []
  | some p, [] => .error (p.fault .unexpectedEnd)
  | none, byte :: rest =>
    if byte < 0x80 then (decodeFrom (offset + 1) none rest).map (Char.ofNat byte.toNat :: ·)
    else match Pending.start? byte offset with
      | none => .error ⟨byte, offset, 1, .invalidStart⟩
      | some p => decodeFrom (offset + 1) (some p) rest
  | some p, byte :: rest =>
    if p.lowest ≤ byte ∧ byte ≤ p.highest then
      let bits := 64 * p.bits + (byte.toNat - 0x80)
      if p.missing = 1 then (decodeFrom (offset + 1) none rest).map (Char.ofNat bits :: ·)
      else
        let p := { p with
          read := p.read + 1, missing := p.missing - 1, lowest := 0x80, highest := 0xbf, bits }
        decodeFrom (offset + 1) (some p) rest
    else .error (p.fault .invalidContinuation)

/-- The text that the bytes are, or the first bytes that are not text. -/
def decode (bytes : List UInt8) : Except Fault (List Char) := decodeFrom 0 none bytes

end Munch.Text.Utf8
