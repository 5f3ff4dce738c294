import Munch.Proofs.CommandLine.Stages
import Munch.Proofs.Text.Offset
import Munch.Proofs.Text.Quoted
import Munch.Regex

/-! The lines that list tokens.

A token is listed on a line of its own, unless there are newlines in its kind: numbers have none,
and the value is quoted. Kinds are names of rules and may have any characters. So the
command writes as many lines as there are tokens exactly if none of the kinds has a newline
(`run_lines`). -/
namespace Munch

/-! ### The listing of a token -/

theorem notMem_repr {c : Char} (hc : c.isDigit = false) (n : Nat) : c ∉ n.repr.toList := by
  rw [Nat.toList_repr]
  intro h
  have hdigit := Nat.isDigit_of_mem_toDigits (by decide) (by decide) h
  exact absurd (hc.symm.trans hdigit) (by decide)

/-- Whole numbers are written with digits and a sign. -/
theorem notMem_toString {c : Char} (hc : c.isDigit = false) (hsign : c ≠ '-') (i : Int) :
    .char c ∉ Text.ofString (toString i) := by
  rw [Text.char_mem_ofString]
  change c ∉ i.repr.toList
  cases i with
  | ofNat n => exact notMem_repr hc n
  | negSucc n =>
    change c ∉ ("-" ++ (n + 1).repr).toList
    rw [String.toList_append]
    intro h
    rcases List.mem_append.mp h with hminus | hdigits
    · exact hsign (List.mem_singleton.mp hminus)
    · exact notMem_repr hc _ hdigits

namespace Token

theorem listing_eq (t : Token) :
    t.listing = Text.ofString (toString t.line) ++ .char ':' ::
      (Text.ofString (toString t.column) ++
        .char '\t' :: (t.kind ++ .char '\t' :: Text.quoted t.value)) := by
  simp [listing]
  rfl

/-- All newlines in the listing of a token are those of its kind. -/
theorem count_newline_listing (t : Token) :
    t.listing.count (.char '\n') = t.kind.count (.char '\n') := by
  have hline := List.count_eq_zero.mpr (notMem_toString (c := '\n') rfl (by decide) t.line)
  have hcolumn := List.count_eq_zero.mpr (notMem_toString (c := '\n') rfl (by decide) t.column)
  have hvalue := List.count_eq_zero.mpr (Text.notMem_quoted (c := .char '\n') (by decide) t.value)
  rw [listing_eq]
  simp only [List.count_append, List.count_cons_of_ne (show Point.char ':' ≠ .char '\n' by decide),
    List.count_cons_of_ne (show Point.char '\t' ≠ .char '\n' by decide), hline, hcolumn, hvalue]
  omega

theorem newline_mem_listing_iff {t : Token} : .char '\n' ∈ t.listing ↔ .char '\n' ∈ t.kind := by
  rw [← List.count_pos_iff, ← List.count_pos_iff, count_newline_listing]

end Token

namespace CommandLine
open Grammar Table

/-! ### Listings -/

theorem listings_eq (tokens : List Token) :
    listings tokens = tokens.flatMap fun token => token.listing ++ [.char '\n'] := rfl

/-- There is a newline for each token, and those of its kind. -/
theorem count_newline_listings (tokens : List Token) :
    (listings tokens).count (.char '\n') =
      tokens.length + (tokens.flatMap Token.kind).count (.char '\n') := by
  rw [listings_eq]
  induction tokens with
  | nil => rfl
  | cons token rest ih =>
    rw [List.flatMap_cons, List.count_append, ih, List.count_append, Token.count_newline_listing,
      List.count_singleton_self, List.length_cons, List.flatMap_cons, List.count_append]
    omega

/-! ### Lines -/

theorem splitOn_listings (tokens : List Token) :
    (listings tokens).splitOn (.char '\n') =
      (tokens.flatMap fun token => token.listing.splitOn (.char '\n')) ++ [[]] := by
  rw [listings_eq]
  induction tokens with
  | nil => rfl
  | cons token rest ih =>
    rw [List.flatMap_cons, List.append_assoc, List.singleton_append, List.splitOn_append_cons_self,
      ih, List.flatMap_cons, List.append_assoc]

/-- Each token is listed on one line exactly if there is no newline in any of the kinds. -/
theorem splitOn_listings_eq_iff {tokens : List Token} :
    (listings tokens).splitOn (.char '\n') =
        tokens.map Token.listing ++ [[]] ↔
      ∀ token ∈ tokens, .char '\n' ∉ token.kind := by
  constructor
  · intro h
    -- A newline in a kind would make a line more than there are tokens.
    have hlength := congrArg List.length h
    rw [Text.length_splitOn, count_newline_listings, List.length_append, List.length_map,
      List.length_singleton] at hlength
    have hkinds : (tokens.flatMap Token.kind).count (.char '\n') = 0 := by omega
    intro token htoken hnewline
    exact List.count_eq_zero.mp hkinds (List.mem_flatMap.mpr ⟨token, htoken, hnewline⟩)
  · intro h
    rw [splitOn_listings, List.append_cancel_right_eq]
    induction tokens with
    | nil => rfl
    | cons token rest ih =>
      obtain ⟨htoken, hrest⟩ := List.forall_mem_cons.mp h
      have hline := mt Token.newline_mem_listing_iff.mp htoken
      rw [List.flatMap_cons, ih hrest, List.splitOn_eq_singleton hline, List.map_cons,
        List.singleton_append]

/-! ### The output of a run -/

section
variable [Engine]

/-- **Lines and tokens**: the lines that the command writes are the listings of the tokens, one
for each, exactly if there is no newline in the kind of any of them, and else there are more
lines than tokens. There is none in any kind if no rule has one in its name. -/
theorem run_lines (host : Host Id) (debug : Bool) (arguments : List Text) (request : Request)
    (hrequest : Request.ofArguments arguments = .ok request) :
    let output := (run host debug arguments).output
    ∃ tokens failure, Stages host request tokens failure ∧
      (output.splitOn (.char '\n') = tokens.map Token.listing ++ [[]] ↔
        ∀ token ∈ tokens, .char '\n' ∉ token.kind) ∧
      output.count (.char '\n') =
        tokens.length + (tokens.flatMap Token.kind).count (.char '\n') ∧
      ∀ t, FileLoads host.limits request.grammar (host.file request.grammar) (.ok t) →
        (∀ r ∈ t.rules, .char '\n' ∉ r.name) → ∀ token ∈ tokens, .char '\n' ∉ token.kind := by
  intro output
  obtain ⟨tokens, failure, records, hstages, hrun⟩ := exists_stages hrequest host
  have houtput : output = listings tokens := by
    simp only [output, hrun debug, conclude_output]
  rw [houtput]
  refine ⟨tokens, failure, hstages, splitOn_listings_eq_iff, count_newline_listings tokens, ?_⟩
  intro t hloads hnames token htoken
  obtain ⟨r, hr, hkind⟩ := hstages.exists_rule hloads htoken
  exact hkind ▸ hnames r hr

end

attribute [local instance] Regex.plain

/-- One letter is one line, though a mark is left. -/
theorem run_lines_mark :
    Request.ofArguments ["a.json"] = .ok ⟨"a.json", "-"⟩ ∧
      ∃ tokens failure, Stages letters ⟨"a.json", "-"⟩ tokens failure ∧
        tokens = [⟨"letter", "a", 1, 0⟩] ∧
        (run letters false ["a.json"]).output.splitOn (.char '\n') =
          tokens.map Token.listing ++ [[]] := by
  have hrequest : Request.ofArguments ["a.json"] = .ok ⟨"a.json", "-"⟩ := by decide +kernel
  obtain ⟨tokens, failure, hstages, hlines, -, -⟩ :=
    run_lines letters false ["a.json"] ⟨"a.json", "-"⟩ hrequest
  have hloading : (loadFile letters.limits "a.json" (letters.file "a.json")).error = none :=
    Option.isNone_iff_eq_none.mp (by decide +kernel)
  have hreading : readInput letters "-" = .ok "a?" := rfl
  obtain ⟨htokens, -⟩ := hstages.unique (.of_run hloading hreading fun _ => rfl)
  have hletter : ((Scan.start "a?").run
      (loadFile letters.limits "a.json" (letters.file "a.json")).table (some 5)).tokens =
        [⟨"letter", "a", 1, 0⟩] := by decide +kernel
  rw [hletter] at htokens
  subst htokens
  exact ⟨hrequest, _, failure, hstages, rfl, hlines.mpr (by decide)⟩

/-- A host that has a keyword with a newline for its name, and a newline to read. -/
def newlines : Host Id := .ofBytes "\x7b\"keywords\": [\"\\n\"]\x7d" "\n"

/-- The one token of a newline is listed on two lines. -/
theorem run_newlines :
    (∃ t, FileLoads newlines.limits "a.json" (newlines.file "a.json") (.ok t)) ∧
      Stages newlines ⟨"a.json", "-"⟩ [⟨"\n", "\n", 1, 0⟩] none ∧
      (run newlines false ["a.json"]).output = "1:0\t\n\t'\\n'\n" ∧
      (run newlines false ["a.json"]).output.count (.char '\n') = 2 := by
  have hloading : (loadFile newlines.limits "a.json" (newlines.file "a.json")).error = none :=
    Option.isNone_iff_eq_none.mp (by decide +kernel)
  have hreading : readInput newlines "-" = .ok "\n" := rfl
  let scanned := (Scan.start "\n").run
    (loadFile newlines.limits "a.json" (newlines.file "a.json")).table (some 5)
  have htokens : scanned.tokens = [⟨"\n", "\n", 1, 0⟩] := by decide +kernel
  have hstop : scanned.stop = none := Option.isNone_iff_eq_none.mp (by decide +kernel)
  have hstages : Stages newlines ⟨"a.json", "-"⟩ [⟨"\n", "\n", 1, 0⟩] none := by
    rw [← htokens, ← hstop]
    exact @Stages.of_run _ _ ⟨"a.json", "-"⟩ _ hloading hreading fun _ => rfl
  have houtput : (run newlines false ["a.json"]).output = "1:0\t\n\t'\\n'\n" := by
    decide +kernel
  refine ⟨⟨_, .of_error_eq_none hloading⟩, hstages, houtput, ?_⟩
  rw [houtput]
  decide

end CommandLine
end Munch
