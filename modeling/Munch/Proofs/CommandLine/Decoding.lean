import Munch.Proofs.CommandLine.Lines
import Munch.Proofs.Text.Unquoting

/-! Listings are read back.

The lines of an output are the listings of its tokens, and a listing has three fields with
tabs between: the numbers of the place, the kind, and the quoted value. Numbers and quoted
values have no tabs and no newlines, so if the kinds have none either, every separator that
is found is one that was put there. Then what is printed says which tokens they are
(`listings_decode`). -/
namespace Munch

namespace Text

/-- The number that is written with decimal digits, and a sign if it is negative. -/
def numberOf : List Char → Int
  | '-' :: digits => -Nat.ofDigitChars 10 digits 0
  | digits => Nat.ofDigitChars 10 digits 0

def number (text : Text) : Int := numberOf (text.filterMap Point.char?)

theorem number_toString (i : Int) : number (toString i) = i := by
  rw [number, filterMap_char?_ofString]
  change numberOf i.repr.toList = i
  cases i with
  | ofNat n =>
    change numberOf n.repr.toList = n
    have hsign : '-' ∉ n.repr.toList := notMem_repr rfl n
    rw [Nat.toList_repr] at hsign ⊢
    unfold numberOf
    split
    next digits hdigits =>
      rw [hdigits] at hsign
      exact absurd (List.mem_cons_self ..) hsign
    next => rw [Nat.ofDigitChars_ten_toDigits]
  | negSucc n =>
    change numberOf ("-" ++ (n + 1).repr).toList = Int.negSucc n
    rw [String.toList_append, Nat.toList_repr]
    change -(Nat.ofDigitChars 10 (Nat.toDigits 10 (n + 1)) 0 : Int) = Int.negSucc n
    rw [Nat.ofDigitChars_ten_toDigits]
    rfl

end Text

namespace Token

/-- The kind has no tab and no newline. -/
def Listable (t : Token) : Prop := .char '\t' ∉ t.kind ∧ .char '\n' ∉ t.kind

/-- The token that a line lists. -/
def ofListing? (line : Text) : Option Token :=
  match line.splitOn (.char '\t') with
  | [place, kind, value] =>
    match place.splitOn (.char ':') with
    | [line, column] =>
      (Text.unquoted? value).map fun value =>
        ⟨kind, value, Text.number line, Text.number column⟩
    | _ => none
  | _ => none

/-- The tabs of a listing are those between its fields. -/
theorem splitOn_listing {t : Token} (h : .char '\t' ∉ t.kind) :
    t.listing.splitOn (.char '\t') =
      [Text.ofString (toString t.line) ++ .char ':' :: Text.ofString (toString t.column), t.kind,
        Text.quoted t.value] := by
  have hplace : .char '\t' ∉
      Text.ofString (toString t.line) ++ .char ':' :: Text.ofString (toString t.column) := by
    have hline := notMem_toString (c := '\t') rfl (by decide) t.line
    have hcolumn := notMem_toString (c := '\t') rfl (by decide) t.column
    intro hmem
    rcases List.mem_append.mp hmem with hmem | hmem
    · exact hline hmem
    · exact hcolumn (List.mem_of_ne_of_mem (by decide) hmem)
  have hvalue := Text.notMem_quoted (c := .char '\t') (by decide) t.value
  rw [listing_eq, ← List.cons_append, ← List.append_assoc,
    List.splitOn_append_cons_self_of_not_mem hplace,
    List.splitOn_append_cons_self_of_not_mem h, List.splitOn_eq_singleton hvalue]

/-- The colon of a place is the one between its numbers. -/
theorem splitOn_place (line column : Int) :
    (Text.ofString (toString line) ++ .char ':' :: Text.ofString (toString column)).splitOn
        (.char ':') =
      [Text.ofString (toString line), Text.ofString (toString column)] := by
  have hline := notMem_toString (c := ':') rfl (by decide) line
  have hcolumn := notMem_toString (c := ':') rfl (by decide) column
  rw [List.splitOn_append_cons_self_of_not_mem hline, List.splitOn_eq_singleton hcolumn]

theorem ofListing?_listing {t : Token} (h : .char '\t' ∉ t.kind) :
    ofListing? t.listing = some t := by
  rw [ofListing?, splitOn_listing h]
  simp only [splitOn_place, Text.unquoted?_quoted, Text.number_toString,
    Option.map_some]

end Token

namespace CommandLine

/-- The tokens that an output lists, a line for each. -/
def readListings (output : Text) : Option (List Token) :=
  (output.splitOn (.char '\n')).dropLast.mapM Token.ofListing?

/-- The lines of a listing are read as its tokens. -/
theorem readListings_listings {tokens : List Token} (h : ∀ token ∈ tokens, token.Listable) :
    readListings (listings tokens) = some tokens := by
  have hlines := splitOn_listings_eq_iff.mpr fun token htoken => (h token htoken).2
  rw [readListings, hlines, List.dropLast_concat]
  clear hlines
  induction tokens with
  | nil => rfl
  | cons token rest ih =>
    obtain ⟨htoken, hrest⟩ := List.forall_mem_cons.mp h
    rw [List.map_cons, List.mapM_cons, Token.ofListing?_listing htoken.1, ih hrest]
    rfl

/-- **What is printed says which tokens they are**: lists of tokens whose kinds have neither
tabs nor newlines are read back from their listings, so no two of them have one listing. The
field of the value has printable characters alone, and it is different for different
values. -/
theorem listings_decode :
    (∀ tokens : List Token, (∀ token ∈ tokens, token.Listable) →
        readListings (listings tokens) = some tokens) ∧
      (∀ tokens others : List Token, (∀ token ∈ tokens, token.Listable) →
        (∀ token ∈ others, token.Listable) → listings tokens = listings others →
          tokens = others) ∧
      (∀ value, ∀ c ∈ Text.quoted value,
        Text.isPrintable c = true ∧ c ≠ .char '\t' ∧ c ≠ .char '\r' ∧ c ≠ .char '\n') ∧
      ∀ value other, Text.quoted value = Text.quoted other → value = other := by
  refine ⟨fun tokens h => readListings_listings h, ?_, ?_,
    fun value other h => Text.quoted_injective h⟩
  · intro tokens others h h' hlistings
    have hread := readListings_listings h
    rw [hlistings, readListings_listings h'] at hread
    exact (Option.some.inj hread).symm
  · intro value c hc
    have hne {d : Point} (hd : Text.isPrintable d = false) : c ≠ d := by
      intro heq
      exact Text.notMem_quoted hd value (heq ▸ hc)
    exact ⟨Text.isPrintable_of_mem_quoted hc, hne (by decide), hne (by decide), hne (by decide)⟩


/-- A newline, and a backslash and a letter. -/
def alike : List Token := [⟨"a:b", "\n", 1, 0⟩, ⟨"a:b", "\\n", -1, 12⟩]

/-- Quotes of both kinds, characters whose codes have two, four and eight digits, and a surrogate
by itself. -/
def strange : List Token :=
  [⟨"'", Text.ofString "'\"\x7f\u200b" ++ [.ofNat 0xe0001, .ofNat 0xd800], 2, 3⟩]

/-- What is escaped is told from what looks like an escape. -/
theorem listings_decode_escapes :
    listings alike = "1:0\ta:b\t'\\n'\n-1:12\ta:b\t'\\\\n'\n" ∧
      listings strange = "2:3\t'\t'\\'\"\\x7f\\u200b\\U000e0001\\ud800'\n" ∧
      readListings (listings alike) = some alike ∧
      readListings (listings strange) = some strange ∧ listings alike ≠ listings strange := by
  obtain ⟨hread, hinjective, -, -⟩ := listings_decode
  have halike : ∀ token ∈ alike, token.Listable := by
    unfold Token.Listable alike
    decide
  have hstrange : ∀ token ∈ strange, token.Listable := by
    unfold Token.Listable strange
    decide
  refine ⟨by decide +kernel, by decide +kernel, hread alike halike, hread strange hstrange, ?_⟩
  intro hsame
  have htokens := hinjective alike strange halike hstrange hsame
  exact absurd (congrArg List.length htokens) (by decide)

end CommandLine
end Munch
