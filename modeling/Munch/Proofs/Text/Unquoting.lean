import Mathlib.Algebra.Group.Nat.Defs
import Munch.Proofs.Text.Quoted
import Munch.Text.Hexadecimal

/-! Quoted texts are read back.

A reader goes once over what stands between the quotes. It copies characters up to a
backslash, and the character after that says how many hexadecimal digits are to come, or
stands for itself or for a tab or line ending. No two written forms are taken for each other:
a backslash is itself written as an escape, so one that is read begins an escape of the
writer (`read_encodeChar`). So whatever may stand as it is, the text comes back
(`unquoted?_encode`), and different texts are written differently (`quoted_injective`). -/
namespace Munch.Text

namespace Quoted

/-- What a reader is within: no escape, one of which the backslash has been read, or a code, of
which `left` digits are to come after the next one. -/
inductive Reader
  | plain
  | escape
  | code (number left : Nat)

/-- The digits that follow the first one in an escape by code point. -/
def furtherDigits? : Point → Option Nat
  | 'x' => some 1
  | 'u' => some 3
  | 'U' => some 7
  | _ => none

/-- The point of an escape by a letter; others are escaped as they are. -/
def escaped : Point → Point
  | 't' => '\t'
  | 'n' => '\n'
  | 'r' => '\r'
  | c => c

def read : Reader → Text → Option Text
  | .plain, [] => some []
  | _, [] => none
  | .plain, c :: rest =>
    if c = .char '\\' then read .escape rest else (read .plain rest).map (c :: ·)
  | .escape, c :: rest =>
    match furtherDigits? c with
    | some left => read (.code 0 left) rest
    | none => (read .plain rest).map (escaped c :: ·)
  | .code number left, c :: rest =>
    let number := 16 * number + (hexValue? c).getD 0
    match left with
    | 0 => (read .plain rest).map (Point.ofNat number :: ·)
    | left + 1 => read (.code number left) rest

variable {stands : Point → Bool} {quote c : Point} {rest : Text}

/-! ### Codes -/

theorem hexValue?_hexDigit : ∀ n < 16, hexValue? (hexDigit n) = some n := by decide

/-- A digit that is read after the others makes the number whole. -/
theorem read_digit (n left : Nat) (rest : Text) :
    read (.code (n / 16) left) (.char (hexDigit (n % 16)) :: rest) =
      match left with
      | 0 => (read .plain rest).map (Point.ofNat n :: ·)
      | left + 1 => read (.code n left) rest := by
  have hdigit := hexValue?_hexDigit (n % 16) (Nat.mod_lt n (by decide))
  have hnumber : 16 * (n / 16) + n % 16 = n := Nat.div_add_mod n 16
  cases left with
  | zero => rw [read, hdigit, Option.getD_some, hnumber]
  | succ left => rw [read, hdigit, Option.getD_some, hnumber]

theorem div_lt_of_lt_pow {n width : Nat} (h : n < 16 ^ (width + 1)) : n / 16 < 16 ^ width := by
  rw [Nat.pow_succ] at h
  omega

/-- A reader has read the number that digits write, with more digits to come. -/
theorem read_hexDigits {n width : Nat} (h : n < 16 ^ width) (left : Nat) (rest : Text) :
    read (.code 0 (width + left)) (hexDigits n width ++ rest) = read (.code n left) rest := by
  -- The last digit is written last, so what is read before it is the number of the others.
  induction width generalizing n left rest with
  | zero =>
    have hzero : n = 0 := by simpa using h
    rw [hzero, Nat.zero_add]
    rfl
  | succ width ih =>
    have hwidth : width + 1 + left = width + (left + 1) := by omega
    rw [hexDigits, List.append_assoc, hwidth, ih (div_lt_of_lt_pow h) (left + 1),
      List.singleton_append, read_digit]

/-- All digits of a code have been read with the last of them. -/
theorem read_code {n left : Nat} (h : n < 16 ^ (left + 1)) (rest : Text) :
    read (.code 0 left) (hexDigits n (left + 1) ++ rest) =
      (read .plain rest).map (Point.ofNat n :: ·) := by
  have hothers := read_hexDigits (div_lt_of_lt_pow h) 0 (.char (hexDigit (n % 16)) :: rest)
  rw [Nat.add_zero] at hothers
  rw [hexDigits, List.append_assoc, List.singleton_append, hothers, read_digit]

theorem toNat_lt (c : Point) : c.toNat < 16 ^ 8 := by
  cases c with
  | char c =>
    have hvalid := c.valid
    have hcode : (Point.char c).toNat = c.val.toNat := rfl
    simp only [UInt32.isValidChar, Nat.isValidChar] at hvalid
    omega
  | surrogate n =>
    have hcode : (Point.surrogate n).toNat = 0xd800 + n := rfl
    omega

theorem read_codeEscape (c : Point) (rest : Text) :
    read .plain (codeEscape c ++ rest) = (read .plain rest).map (c :: ·) := by
  have hescape : ∀ letter left, furtherDigits? letter = some left → c.toNat < 16 ^ (left + 1) →
      read .plain (.char '\\' :: letter :: hexDigits c.toNat (left + 1) ++ rest) =
        (read .plain rest).map (c :: ·) := by
    intro letter left hletter hcode
    have hread := read_code hcode rest
    rw [Point.ofNat_toNat] at hread
    simp only [List.cons_append, read, hletter, if_true, hread]
  unfold codeEscape
  by_cases hbyte : c.toNat < 0x100
  · rw [if_pos hbyte]
    exact hescape 'x' 1 rfl hbyte
  · rw [if_neg hbyte]
    by_cases hplane : c.toNat < 0x10000
    · rw [if_pos hplane]
      exact hescape 'u' 3 rfl hplane
    · rw [if_neg hplane]
      exact hescape 'U' 7 rfl (toNat_lt c)

/-! ### Texts -/

theorem quoteOf_eq (text : Text) : quoteOf text = .char '"' ∨ quoteOf text = .char '\'' := by
  unfold quoteOf
  split
  · exact .inl rfl
  · exact .inr rfl

/-- The written form of a character is read as the character. -/
theorem read_encodeChar (hquote : quote = .char '"' ∨ quote = .char '\'') (c : Point)
    (rest : Text) :
    read .plain (encodeChar stands quote c ++ rest) = (read .plain rest).map (c :: ·) := by
  have hpair : ∀ e, furtherDigits? e = none → escaped e = c →
      read .plain ([.char '\\', e] ++ rest) = (read .plain rest).map (c :: ·) := by
    intro e hdigits hc
    simp only [List.cons_append, List.nil_append, read, hdigits, hc, if_true]
  unfold encodeChar
  by_cases hself : c = quote ∨ c = .char '\\'
  · rw [if_pos hself]
    rcases hself with rfl | rfl
    · rcases hquote with rfl | rfl
      · exact hpair '"' rfl rfl
      · exact hpair '\'' rfl rfl
    · exact hpair '\\' rfl rfl
  rw [if_neg hself]
  by_cases htab : c = .char '\t'
  · rw [if_pos htab]
    exact hpair 't' rfl htab.symm
  rw [if_neg htab]
  by_cases hnewline : c = .char '\n'
  · rw [if_pos hnewline]
    exact hpair 'n' rfl hnewline.symm
  rw [if_neg hnewline]
  by_cases hreturn : c = .char '\r'
  · rw [if_pos hreturn]
    exact hpair 'r' rfl hreturn.symm
  rw [if_neg hreturn]
  by_cases hstands : stands c = true
  · rw [if_pos hstands, List.singleton_append, read, if_neg fun hc => hself (.inr hc)]
  · rw [if_neg hstands]
    exact read_codeEscape c rest

theorem read_flatMap (hquote : quote = .char '"' ∨ quote = .char '\'') (text : Text) :
    read .plain (text.flatMap (encodeChar stands quote)) = some text := by
  induction text with
  | nil => rfl
  | cons c rest ih =>
    rw [List.flatMap_cons, read_encodeChar hquote, ih]
    rfl

end Quoted

/-- The text of which this is the quoted form. -/
def unquoted? (text : Text) : Option Text := Quoted.read .plain text.tail.dropLast

/-- **Quoted texts are read back.** -/
theorem unquoted?_encode (stands : Point → Bool) (text : Text) :
    unquoted? (Quoted.encode stands text) = some text := by
  rw [unquoted?, Quoted.encode, List.tail_cons, List.dropLast_concat]
  exact Quoted.read_flatMap (Quoted.quoteOf_eq text) text

theorem unquoted?_quoted (text : Text) : unquoted? (quoted text) = some text :=
  unquoted?_encode isPrintable text

/-- Different texts have different quoted forms. -/
theorem quoted_injective : Function.Injective quoted := by
  intro a b h
  have hread := unquoted?_quoted a
  rw [h, unquoted?_quoted] at hread
  exact (Option.some.inj hread).symm

end Munch.Text
