/-! Texts, as the code points that they consist of.

A point of a text is a character or a surrogate by itself. A surrogate is no character, and no
encoded file holds one, but an escape may write it. -/
namespace Munch

/-- A character, or one of the surrogates, counted from U+D800. -/
inductive Point
  | char (c : Char)
  | surrogate (n : Fin 0x800)
deriving DecidableEq, Repr

namespace Point

instance : Coe Char Point := ⟨char⟩

/-- The code of a point. -/
def toNat : Point → Nat
  | char c => c.toNat
  | surrogate n => 0xd800 + n

/-- The point of a code. -/
def ofNat (code : Nat) : Point :=
  if 0xd800 ≤ code ∧ code < 0xe000 then surrogate (Fin.ofNat 0x800 (code - 0xd800))
  else char (Char.ofNat code)

theorem ofNat_toNat (p : Point) : ofNat p.toNat = p := by
  cases p with
  | char c =>
    have hcode : ¬ (0xd800 ≤ c.toNat ∧ c.toNat < 0xe000) := by
      rintro ⟨hlow, hhigh⟩
      rcases c.valid with hbelow | ⟨habove, -⟩
      · exact absurd (show c.toNat < 0xd800 from hbelow) (Nat.not_lt.mpr hlow)
      · have : 0xdfff < c.toNat := habove
        omega
    rw [toNat, ofNat, if_neg hcode, Char.ofNat_toNat]
  | surrogate n =>
    have hcode : 0xd800 ≤ 0xd800 + n.val ∧ 0xd800 + n.val < 0xe000 := by omega
    rw [toNat, ofNat, if_pos hcode, Nat.add_sub_cancel_left, Fin.ofNat_val_eq_self]

theorem toNat_inj {p q : Point} (h : p.toNat = q.toNat) : p = q := by
  rw [← ofNat_toNat p, h, ofNat_toNat]

def char? : Point → Option Char
  | char c => some c
  | surrogate _ => none

def isSurrogate (c : Point) : Bool := c.char?.isNone

/-- Whether a point is a character with a property. -/
def isChar (p : Char → Bool) (c : Point) : Bool := c.char?.any p

end Point

abbrev Text := List Point

namespace Text

/-- The codes of the points. -/
def codes (text : Text) : List Nat := text.map Point.toNat

theorem codes_inj {a b : Text} (h : a.codes = b.codes) : a = b :=
  (List.map_inj_right fun _ _ => Point.toNat_inj).mp h

/-- Texts are in order by their codes. -/
instance : LE Text := ⟨fun a b => List.le a.codes b.codes⟩

instance (a b : Text) : Decidable (a ≤ b) := inferInstanceAs (Decidable (List.le a.codes b.codes))

theorem le_trans {a b c : Text} (h : a ≤ b) (h' : b ≤ c) : a ≤ c :=
  @List.le_trans Nat _ _ _ _ a.codes b.codes c.codes h h'

theorem le_total (a b : Text) : a ≤ b ∨ b ≤ a := List.le_total a.codes b.codes

theorem le_antisymm {a b : Text} (h : a ≤ b) (h' : b ≤ a) : a = b :=
  codes_inj (List.le_antisymm h h')

def ofChars (chars : List Char) : Text := chars.map .char

def ofString (s : String) : Text := ofChars s.toList

@[simp] theorem ofChars_inj {a b : List Char} : ofChars a = ofChars b ↔ a = b :=
  List.map_inj_right fun _ _ => Point.char.inj

@[simp] theorem ofString_inj {s t : String} : ofString s = ofString t ↔ s = t := by
  rw [ofString, ofString, ofChars_inj, String.toList_inj]

@[simp] theorem ofString_append (s t : String) : ofString (s ++ t) = ofString s ++ ofString t := by
  rw [ofString, String.toList_append]
  exact List.map_append

@[simp] theorem char_mem_ofString {c : Char} {s : String} :
    .char c ∈ ofString s ↔ c ∈ s.toList := by
  simp [ofString, ofChars]

theorem filterMap_char?_ofString (s : String) : (ofString s).filterMap Point.char? = s.toList := by
  rw [ofString, ofChars, List.filterMap_map]
  exact List.filterMap_some

instance : Coe String Text := ⟨ofString⟩

end Text
end Munch
