import Mathlib.Algebra.Group.Nat.Defs
import Munch.Text.Utf8

/-! What bytes are text.

A text is encoded character by character. A character of several bytes is its first byte,
which says how many follow, and those that follow, with six bits each
(`utf8EncodeChar_eq`). The decoder reads a byte at a time and keeps the part of a
character that it has read: a first byte leaves what admits the characters that begin
with it (`start?_some`), and the bytes that follow end one of these, or nothing
(`decodeFrom_tails`, `exists_tails`). So the decoder accepts the encodings of texts, each
as its text, and no other bytes (`decode_eq_ok_iff`). -/
namespace Munch.Text.Utf8

/-- The bytes of a text. -/
def encode (text : List Char) : List UInt8 := text.flatMap String.utf8EncodeChar

/-! ### The bytes of a character -/

/-- The byte of a code point that has `n` bytes after it. -/
def tail (n code : Nat) : Nat := 0x80 + code / 64 ^ n % 64

/-- The last `n` bytes of a code point. -/
def tails : Nat → Nat → List UInt8
  | 0, _ => []
  | n + 1, code => UInt8.ofNat (tail n code) :: tails n code

/-- The number of bytes after the first one, where there are several. -/
def width (code : Nat) : Nat := if code ≤ 0x7ff then 1 else if code ≤ 0xffff then 2 else 3

/-- The first byte, where there are several. -/
def lead (code : Nat) : Nat :=
  if code ≤ 0x7ff then 0xc0 + code / 64
  else if code ≤ 0xffff then 0xe0 + code / 4096
  else 0xf0 + code / 262144

theorem width_cases (code : Nat) :
    (code ≤ 0x7ff ∧ width code = 1 ∧ lead code = 0xc0 + code / 64) ∨
      (0x7ff < code ∧ code ≤ 0xffff ∧ width code = 2 ∧ lead code = 0xe0 + code / 4096) ∨
      (0xffff < code ∧ width code = 3 ∧ lead code = 0xf0 + code / 262144) := by
  unfold width lead
  split
  · omega
  · split <;> omega

theorem tail_range (n code : Nat) : 0x80 ≤ tail n code ∧ tail n code ≤ 0xbf := by
  unfold tail
  omega

theorem toNat_tail (n code : Nat) : (UInt8.ofNat (tail n code)).toNat = tail n code := by
  have hrange := tail_range n code
  exact UInt8.toNat_ofNat_of_lt' (by show _ < 256; omega)

theorem toNat_lt_limit (c : Char) : c.toNat < 0x110000 := by
  have hvalid : c.toNat.isValidChar := c.valid
  simp only [Nat.isValidChar] at hvalid
  omega

theorem toNat_ofNat_of_isValidChar {code : Nat} (h : code.isValidChar) :
    (Char.ofNat code).toNat = code := by
  rw [Char.ofNat, dif_pos h]
  rfl

theorem utf8EncodeChar_ascii {c : Char} (h : c.toNat ≤ 0x7f) :
    String.utf8EncodeChar c = [UInt8.ofNat c.toNat] := if_pos h

theorem utf8EncodeChar_eq {c : Char} (h : 0x7f < c.toNat) :
    String.utf8EncodeChar c =
      UInt8.ofNat (lead c.toNat) :: tails (width c.toNat) c.toNat := by
  have hlt := toNat_lt_limit c
  unfold String.utf8EncodeChar
  show (if c.toNat ≤ _ then _ else if c.toNat ≤ _ then _ else if c.toNat ≤ _ then _ else _) = _
  rw [if_neg (Nat.not_le_of_gt h)]
  rcases width_cases c.toNat with ⟨hle, hw, hl⟩ | ⟨hgt, hle, hw, hl⟩ | ⟨hgt, hw, hl⟩
  · have htop : c.toNat / 64 % 32 = c.toNat / 64 := by omega
    rw [if_pos hle, hw, hl]
    simp [tails, tail, htop, Nat.add_comm]
  · have htop : c.toNat / 4096 % 16 = c.toNat / 4096 := by omega
    rw [if_neg (by omega), if_pos hle, hw, hl]
    simp [tails, tail, htop, Nat.add_comm]
  · have htop : c.toNat / 262144 % 8 = c.toNat / 262144 := by omega
    rw [if_neg (by omega), if_neg (by omega), hw, hl]
    simp [tails, tail, htop, Nat.add_comm]

/-! ### The first byte -/

/-- The code point is a character of several bytes, of which this is the first. -/
def Leads (byte : UInt8) (code : Nat) : Prop :=
  code.isValidChar ∧ 0x7f < code ∧ byte.toNat = lead code

/-- The code point has the bits that are read, and its next byte lies in the range for it. -/
def Pending.Admits (p : Pending) (code : Nat) : Prop :=
  code / 64 ^ p.missing = p.bits ∧
    p.lowest.toNat ≤ tail (p.missing - 1) code ∧ tail (p.missing - 1) code ≤ p.highest.toNat

/-- Some byte is missing, and whatever lies in the range for it follows a first byte. -/
structure Pending.Sound (p : Pending) : Prop where
  missing : 0 < p.missing
  lowest : 0x80 ≤ p.lowest.toNat
  highest : p.highest.toNat ≤ 0xbf

/-- A first byte leaves what admits the characters that begin with it. -/
theorem start?_some {byte : UInt8} {offset : Nat} {p : Pending}
    (h : Pending.start? byte offset = some p) :
    p.Sound ∧ ∀ code, (p.Admits code ↔ Leads byte code) ∧
      (Leads byte code → p.missing = width code) := by
  have hbyte := byte.toNat_lt
  unfold Pending.start? at h
  simp only [UInt8.lt_iff_toNat_lt, ← UInt8.toNat_inj, UInt8.reduceToNat] at h
  -- The ranges for the next byte leave out the overlong forms, the surrogates, and what is
  -- past the last code point: in each case this is a matter of numbers.
  repeat' split at h
  all_goals cases h
  all_goals
    refine ⟨⟨Nat.zero_lt_succ _, by simp, by simp⟩, fun code => ?_⟩
    have hcases := width_cases code
    simp only [Pending.Admits, Leads, Nat.isValidChar, tail, UInt8.reduceToNat]
    omega

/-- Any other byte is the first of no character. -/
theorem start?_none {byte : UInt8} {offset : Nat} (h : Pending.start? byte offset = none)
    (code : Nat) : ¬ Leads byte code := by
  have hcases := width_cases code
  unfold Pending.start? at h
  simp only [UInt8.lt_iff_toNat_lt, ← UInt8.toNat_inj, UInt8.reduceToNat] at h
  simp only [Leads, Nat.isValidChar]
  repeat' split at h
  all_goals first | omega | cases h

/-- The first of several bytes leaves what admits the character. -/
theorem exists_start {byte : UInt8} {code : Nat} (h : Leads byte code) (offset : Nat) :
    ∃ p m, Pending.start? byte offset = some p ∧ p.missing = m + 1 ∧ width code = m + 1 ∧
      p.Sound ∧ p.Admits code := by
  cases hstart : Pending.start? byte offset with
  | none => exact absurd h (start?_none hstart code)
  | some p =>
    obtain ⟨hsound, hadmits⟩ := start?_some hstart
    obtain ⟨hiff, hwidth⟩ := hadmits code
    obtain ⟨m, hm⟩ := Nat.exists_eq_succ_of_ne_zero (Nat.ne_of_gt hsound.missing)
    exact ⟨p, m, rfl, hm, (hwidth h).symm.trans hm, hsound, hiff.mpr h⟩

theorem leads_lead {c : Char} (h : 0x7f < c.toNat) :
    Leads (UInt8.ofNat (lead c.toNat)) c.toNat := by
  have hlt := toNat_lt_limit c
  have hcases := width_cases c.toNat
  exact ⟨c.valid, h, UInt8.toNat_ofNat_of_lt' (by show _ < 256; omega)⟩

theorem Leads.not_ascii {byte : UInt8} {code : Nat} (h : Leads byte code) : ¬ byte < 0x80 := by
  obtain ⟨-, -, hlead⟩ := h
  have hcases := width_cases code
  rw [UInt8.lt_iff_toNat_lt, hlead]
  show ¬ _ < 0x80
  omega

/-! ### The bytes that follow -/

/-- What is read after one byte more. -/
def Pending.next (p : Pending) (byte : UInt8) : Pending :=
  { p with
    read := p.read + 1
    missing := p.missing - 1
    lowest := 0x80
    highest := 0xbf
    bits := 64 * p.bits + (byte.toNat - 0x80) }

theorem Pending.next_sound {p : Pending} {m : Nat} (hm : p.missing = m + 2) (byte : UInt8) :
    (p.next byte).Sound where
  missing := by
    show 0 < p.missing - 1
    omega
  lowest := Nat.le_refl _
  highest := Nat.le_refl _

/-- A code point is admitted if its next byte is in range, and what is read with this byte admits
it. -/
theorem Pending.admits_iff {p : Pending} {m : Nat} (hm : p.missing = m + 2) (hp : p.Sound)
    {byte : UInt8} {code : Nat} (hbyte : p.lowest ≤ byte ∧ byte ≤ p.highest) :
    (p.next byte).Admits code ↔ p.Admits code ∧ byte = UInt8.ofNat (tail (m + 1) code) := by
  obtain ⟨-, hlow, hhigh⟩ := hp
  simp only [UInt8.le_iff_toNat_le] at hbyte
  have hdiv : code / 64 ^ (m + 2) = code / 64 ^ (m + 1) / 64 := by
    rw [Nat.pow_succ, Nat.div_div_eq_div_mul]
  have hsmall := tail_range m code
  simp only [Admits, next, hm, ← UInt8.toNat_inj, toNat_tail, hdiv, UInt8.reduceToNat]
  simp only [show m + 2 - 1 = m + 1 from rfl, Nat.add_sub_cancel, hsmall, and_self, and_true]
  simp only [tail] at hbyte ⊢
  omega

/-- The last byte completes a code point, which is admitted. -/
theorem Pending.bits_next_iff {p : Pending} (hm : p.missing = 1) (hp : p.Sound) {byte : UInt8}
    {code : Nat} (hbyte : p.lowest ≤ byte ∧ byte ≤ p.highest) :
    (p.next byte).bits = code ↔ p.Admits code ∧ byte = UInt8.ofNat (tail 0 code) := by
  obtain ⟨-, hlow, hhigh⟩ := hp
  simp only [UInt8.le_iff_toNat_le] at hbyte
  simp only [Admits, next, hm, ← UInt8.toNat_inj, toNat_tail]
  simp only [tail]
  omega

theorem Pending.Admits.range {p : Pending} {m code : Nat} (h : p.Admits code)
    (hm : p.missing = m + 1) :
    p.lowest ≤ UInt8.ofNat (tail m code) ∧ UInt8.ofNat (tail m code) ≤ p.highest := by
  obtain ⟨-, hlow, hhigh⟩ := h
  rw [hm, Nat.add_sub_cancel] at hlow hhigh
  rw [UInt8.le_iff_toNat_le, UInt8.le_iff_toNat_le, toNat_tail]
  exact ⟨hlow, hhigh⟩

section Step
variable {p : Pending} {offset : Nat} {byte : UInt8} (rest : List UInt8)
  (hbyte : p.lowest ≤ byte ∧ byte ≤ p.highest)
include hbyte

theorem decodeFrom_last (hm : p.missing = 1) :
    decodeFrom offset (some p) (byte :: rest) =
      (decodeFrom (offset + 1) none rest).map (Char.ofNat (p.next byte).bits :: ·) := by
  rw [decodeFrom, if_pos hbyte, if_pos hm]
  rfl

theorem decodeFrom_next {m : Nat} (hm : p.missing = m + 2) :
    decodeFrom offset (some p) (byte :: rest) =
      decodeFrom (offset + 1) (some (p.next byte)) rest := by
  rw [decodeFrom, if_pos hbyte, if_neg (by omega)]
  rfl

end Step

theorem exists_byte {p : Pending} {offset : Nat} {bytes : List UInt8} {text : List Char}
    (h : decodeFrom offset (some p) bytes = .ok text) :
    ∃ byte rest, bytes = byte :: rest ∧ p.lowest ≤ byte ∧ byte ≤ p.highest := by
  cases bytes with
  | nil => cases h
  | cons byte rest =>
    by_cases hbyte : p.lowest ≤ byte ∧ byte ≤ p.highest
    · exact ⟨byte, rest, rfl, hbyte⟩
    · rw [decodeFrom, if_neg hbyte] at h
      cases h

/-- The bytes that are missing end the character. -/
theorem decodeFrom_tails {p : Pending} {m code : Nat} (hm : p.missing = m + 1) (hp : p.Sound)
    (h : p.Admits code) (offset : Nat) (rest : List UInt8) :
    decodeFrom offset (some p) (tails (m + 1) code ++ rest) =
      (decodeFrom (offset + (m + 1)) none rest).map (Char.ofNat code :: ·) := by
  induction m generalizing p offset with
  | zero =>
    have hrange := h.range hm
    have hbits := (Pending.bits_next_iff hm hp hrange).mpr ⟨h, rfl⟩
    rw [tails, List.cons_append, decodeFrom_last _ hrange hm, hbits]
    rfl
  | succ m ih =>
    have hrange := h.range hm
    have hnext : (p.next (UInt8.ofNat (tail (m + 1) code))).Admits code :=
      (Pending.admits_iff hm hp hrange).mpr ⟨h, rfl⟩
    rw [tails, List.cons_append, decodeFrom_next _ hrange hm,
      ih (by show p.missing - 1 = _; omega) (Pending.next_sound hm _) hnext,
      show offset + 1 + (m + 1) = offset + (m + 1 + 1) by omega]

/-- No other bytes end a character. -/
theorem exists_tails {p : Pending} {m : Nat} (hm : p.missing = m + 1) (hp : p.Sound)
    {offset : Nat} {bytes : List UInt8} {text : List Char}
    (h : decodeFrom offset (some p) bytes = .ok text) :
    ∃ code rest, p.Admits code ∧ bytes = tails (m + 1) code ++ rest := by
  induction m generalizing p offset bytes with
  | zero =>
    obtain ⟨byte, rest, rfl, hbyte⟩ := exists_byte h
    obtain ⟨hadmits, hlast⟩ := (Pending.bits_next_iff hm hp hbyte).mp rfl
    exact ⟨_, rest, hadmits, congrArg (· :: rest) hlast⟩
  | succ m ih =>
    obtain ⟨byte, rest, rfl, hbyte⟩ := exists_byte h
    rw [decodeFrom_next rest hbyte hm] at h
    obtain ⟨code, rest, hnext, rfl⟩ :=
      ih (by show p.missing - 1 = _; omega) (Pending.next_sound hm byte) h
    obtain ⟨hadmits, rfl⟩ := (Pending.admits_iff hm hp hbyte).mp hnext
    exact ⟨code, rest, hadmits, rfl⟩

/-! ### Texts -/

theorem length_tails (n code : Nat) : (tails n code).length = n := by
  induction n with
  | zero => rfl
  | succ n ih => rw [tails, List.length_cons, ih]

/-- A character is decoded from its bytes, whatever follows. -/
theorem decodeFrom_utf8EncodeChar (c : Char) (offset : Nat) (rest : List UInt8) :
    decodeFrom offset none (String.utf8EncodeChar c ++ rest) =
      (decodeFrom (offset + (String.utf8EncodeChar c).length) none rest).map (c :: ·) := by
  by_cases hascii : c.toNat ≤ 0x7f
  · have hbyte : (UInt8.ofNat c.toNat).toNat = c.toNat :=
      UInt8.toNat_ofNat_of_lt' (by show _ < 256; omega)
    have hlt : UInt8.ofNat c.toNat < 0x80 := by
      rw [UInt8.lt_iff_toNat_lt, hbyte]
      exact Nat.lt_of_le_of_lt hascii (by decide)
    rw [utf8EncodeChar_ascii hascii]
    show decodeFrom offset none (UInt8.ofNat c.toNat :: rest) = _
    rw [decodeFrom, if_pos hlt, hbyte, Char.ofNat_toNat]
    rfl
  · have hgt : 0x7f < c.toNat := Nat.lt_of_not_le hascii
    have hleads := leads_lead hgt
    obtain ⟨p, m, hstart, hmissing, hwidth, hsound, hadmits⟩ := exists_start hleads offset
    rw [utf8EncodeChar_eq hgt, hwidth, List.cons_append, decodeFrom, if_neg hleads.not_ascii,
      hstart]
    show decodeFrom (offset + 1) (some p) _ = _
    rw [decodeFrom_tails hmissing hsound hadmits, Char.ofNat_toNat, List.length_cons, length_tails,
      show offset + 1 + (m + 1) = offset + (m + 1 + 1) by omega]

/-- What is decoded begins with the bytes of a character. -/
theorem exists_utf8EncodeChar {offset : Nat} {byte : UInt8} {bytes : List UInt8}
    {text : List Char} (h : decodeFrom offset none (byte :: bytes) = .ok text) :
    ∃ c rest, byte :: bytes = String.utf8EncodeChar c ++ rest := by
  rw [decodeFrom] at h
  by_cases hascii : byte < 0x80
  · have hlt := UInt8.lt_iff_toNat_lt.mp hascii
    have hchar : (Char.ofNat byte.toNat).toNat = byte.toNat :=
      toNat_ofNat_of_isValidChar (.inl (Nat.lt_trans hlt (by decide)))
    refine ⟨Char.ofNat byte.toNat, bytes, ?_⟩
    rw [utf8EncodeChar_ascii (by rw [hchar]; exact Nat.le_of_lt_succ hlt), hchar, UInt8.ofNat_toNat]
    rfl
  · rw [if_neg hascii] at h
    cases hstart : Pending.start? byte offset with
    | none =>
      rw [hstart] at h
      cases h
    | some p =>
      rw [hstart] at h
      obtain ⟨hsound, hadmits⟩ := start?_some hstart
      obtain ⟨m, hm⟩ := Nat.exists_eq_succ_of_ne_zero (Nat.ne_of_gt hsound.missing)
      obtain ⟨code, rest, hcode, rfl⟩ := exists_tails hm hsound h
      have hleads := (hadmits code).1.mp hcode
      have hwidth := ((hadmits code).2 hleads).symm.trans hm
      obtain ⟨hvalid, hgt, hlead⟩ := hleads
      have hchar := toNat_ofNat_of_isValidChar hvalid
      refine ⟨Char.ofNat code, rest, ?_⟩
      rw [utf8EncodeChar_eq (by rwa [hchar]), hchar, hwidth, ← hlead, UInt8.ofNat_toNat]
      rfl

theorem decodeFrom_append_iff {c : Char} {offset : Nat} {rest : List UInt8} {text : List Char} :
    decodeFrom offset none (String.utf8EncodeChar c ++ rest) = .ok text ↔
      ∃ left, text = c :: left ∧
        decodeFrom (offset + (String.utf8EncodeChar c).length) none rest = .ok left := by
  rw [decodeFrom_utf8EncodeChar]
  cases decodeFrom (offset + (String.utf8EncodeChar c).length) none rest with
  | error fault => simp [Except.map]
  | ok left => simp [Except.map, eq_comm]

theorem decodeFrom_eq_ok_iff {offset : Nat} {bytes : List UInt8} {text : List Char} :
    decodeFrom offset none bytes = .ok text ↔ bytes = encode text := by
  constructor
  · intro h
    induction text generalizing offset bytes with
    | nil =>
      cases bytes with
      | nil => rfl
      | cons byte bytes =>
        obtain ⟨c, rest, hbytes⟩ := exists_utf8EncodeChar h
        rw [hbytes, decodeFrom_append_iff] at h
        obtain ⟨left, htext, -⟩ := h
        cases htext
    | cons c text ih =>
      cases bytes with
      | nil => cases h
      | cons byte bytes =>
        obtain ⟨c', rest, hbytes⟩ := exists_utf8EncodeChar h
        rw [hbytes, decodeFrom_append_iff] at h
        obtain ⟨left, htext, hrest⟩ := h
        cases htext
        rw [hbytes, ih hrest, encode, encode, List.flatMap_cons]
  · rintro rfl
    induction text generalizing offset with
    | nil => rfl
    | cons c text ih =>
      rw [encode, List.flatMap_cons]
      exact decodeFrom_append_iff.mpr ⟨text, rfl, ih⟩

/-- **Bytes are text** if they are the encoding of one, and they are that text. -/
theorem decode_eq_ok_iff {bytes : List UInt8} {text : List Char} :
    decode bytes = .ok text ↔ bytes = encode text := decodeFrom_eq_ok_iff

end Munch.Text.Utf8
