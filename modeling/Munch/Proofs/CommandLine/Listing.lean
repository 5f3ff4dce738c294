import Munch.CommandLine
import Munch.Proofs.Scan.Lexing

/-! Listing the tokens.

The tokens that lexing finds are listed line by line as long as the output takes the lines. `Listed`
says how far this goes: to the end, or up to the first token whose line is refused, which is cut off
and on record by then but not listed. It goes in one way (`Listed.unique`), and that is the way of
the command (`exists_listed`). -/
namespace Munch.CommandLine

/-- The lines that list tokens. -/
def listings (tokens : List Token) : Text :=
  tokens.flatMap fun token => token.listing ++ "\n"

/-- The output refuses the line of a token. -/
def Refused (refuses : Text → Option Failure) (piece : Piece) (f : Failure) : Prop :=
  ∃ token, piece = .token token ∧ refuses token.listing = some f

/-- How far tokens are listed among pieces that end in `stop`: to the end, or up to one whose line
is refused. That one is cut off and not listed. -/
inductive Listed (refuses : Text → Option Failure) (pieces : List Piece) (stop : Option Error) :
    List Piece → List Token → Option Error → Prop
  | all : (∀ piece ∈ pieces, ∀ f, ¬ Refused refuses piece f) →
      Listed refuses pieces stop pieces (pieces.filterMap Piece.token?) stop
  | refused {before piece after f} : pieces = before ++ piece :: after →
      (∀ earlier ∈ before, ∀ f, ¬ Refused refuses earlier f) → Refused refuses piece f →
      Listed refuses pieces stop (before ++ [piece]) (before.filterMap Piece.token?)
        (some (.failure f))

section Listed
variable {refuses : Text → Option Failure} {pieces taken : List Piece} {stop : Option Error}
  {tokens : List Token} {failure : Option Error}

theorem Refused.unique {piece : Piece} {f f' : Failure} (h : Refused refuses piece f)
    (h' : Refused refuses piece f') : f = f' := by
  obtain ⟨token, rfl, hf⟩ := h
  obtain ⟨token', htoken, hf'⟩ := h'
  cases htoken
  exact Option.some.inj (hf.symm.trans hf')

/-- The first piece that is refused is found in one place. -/
theorem refused_unique {before before' after after' : List Piece} {piece piece' : Piece}
    {f f' : Failure} (h : before ++ piece :: after = before' ++ piece' :: after')
    (hbefore : ∀ earlier ∈ before, ∀ f, ¬ Refused refuses earlier f)
    (hbefore' : ∀ earlier ∈ before', ∀ f, ¬ Refused refuses earlier f)
    (hpiece : Refused refuses piece f) (hpiece' : Refused refuses piece' f') :
    before = before' ∧ piece = piece' := by
  induction before generalizing before' with
  | nil =>
    cases before' with
    | nil =>
      cases h
      exact ⟨rfl, rfl⟩
    | cons first rest =>
      cases h
      exact absurd hpiece (hbefore' _ List.mem_cons_self _)
  | cons first rest ih =>
    cases before' with
    | nil =>
      cases h
      exact absurd hpiece' (hbefore _ List.mem_cons_self _)
    | cons first' rest' =>
      obtain ⟨rfl, hrest⟩ := List.cons.inj h
      obtain ⟨-, hbefore⟩ := List.forall_mem_cons.mp hbefore
      obtain ⟨-, hbefore'⟩ := List.forall_mem_cons.mp hbefore'
      obtain ⟨rfl, hpieces⟩ := ih hrest hbefore hbefore'
      exact ⟨rfl, hpieces⟩

theorem Listed.unique {taken' : List Piece} {tokens' : List Token} {failure' : Option Error}
    (h : Listed refuses pieces stop taken tokens failure)
    (h' : Listed refuses pieces stop taken' tokens' failure') :
    taken = taken' ∧ tokens = tokens' ∧ failure = failure' := by
  cases h with
  | all hall =>
    cases h' with
    | all _ => exact ⟨rfl, rfl, rfl⟩
    | refused hpieces _ hpiece => exact absurd hpiece (hall _ (by simp [hpieces]) _)
  | refused hpieces hbefore hpiece =>
    cases h' with
    | all hall => exact absurd hpiece (hall _ (by simp [hpieces]) _)
    | refused hpieces' hbefore' hpiece' =>
      obtain ⟨rfl, rfl⟩ :=
        refused_unique (hpieces.symm.trans hpieces') hbefore hbefore' hpiece hpiece'
      obtain rfl := hpiece.unique hpiece'
      exact ⟨rfl, rfl, rfl⟩

theorem Listed.tokens_mem (h : Listed refuses pieces stop taken tokens failure) {token : Token}
    (htoken : token ∈ tokens) : .token token ∈ pieces := by
  have hmem {ps : List Piece} (h : token ∈ ps.filterMap Piece.token?) : .token token ∈ ps := by
    obtain ⟨piece, hpiece, hsome⟩ := List.mem_filterMap.mp h
    cases piece with
    | ignored _ => cases hsome
    | token _ =>
      cases hsome
      exact hpiece
  cases h with
  | all _ => exact hmem htoken
  | refused hpieces _ _ =>
    rw [hpieces]
    exact List.mem_append_left _ (hmem htoken)

theorem Listed.cons_ignored {text : Text} (h : Listed refuses pieces stop taken tokens failure) :
    Listed refuses (.ignored text :: pieces) stop (.ignored text :: taken) tokens failure := by
  have hignored (f : Failure) : ¬ Refused refuses (.ignored text) f := by
    rintro ⟨token, htoken, -⟩
    cases htoken
  cases h with
  | all hall => exact .all (List.forall_mem_cons.mpr ⟨hignored, hall⟩)
  | refused hpieces hbefore hpiece =>
    exact .refused (congrArg (List.cons _) hpieces)
      (List.forall_mem_cons.mpr ⟨hignored, hbefore⟩) hpiece

theorem Listed.cons_token {token : Token} (htoken : refuses token.listing = none)
    (h : Listed refuses pieces stop taken tokens failure) :
    Listed refuses (.token token :: pieces) stop (.token token :: taken) (token :: tokens)
      failure := by
  have haccepted (f : Failure) : ¬ Refused refuses (.token token) f := by
    rintro ⟨_, heq, hf⟩
    cases heq
    cases htoken.symm.trans hf
  cases h with
  | all hall => exact .all (List.forall_mem_cons.mpr ⟨haccepted, hall⟩)
  | refused hpieces hbefore hpiece =>
    exact .refused (congrArg (List.cons _) hpieces)
      (List.forall_mem_cons.mpr ⟨haccepted, hbefore⟩) hpiece

theorem list_token {token : Token} (h : refuses token.listing = none) (rest : List Record) :
    list refuses (.token token :: rest) =
      { list refuses rest with
        output := token.listing ++ "\n" ++ (list refuses rest).output
        records := .token token :: (list refuses rest).records } := by
  rw [list, h]

theorem list_refused {token : Token} {f : Failure} (h : refuses token.listing = some f)
    (rest : List Record) :
    list refuses (.token token :: rest) = { records := [.token token], failure := some f } := by
  rw [list, h]

/-- Listing what goes on record lists the tokens among the pieces. -/
theorem exists_listed (refuses : Text → Option Failure) (pieces : List Piece)
    (stop : Option Error) :
    let listing := list refuses (pieces.map Piece.record)
    ∃ taken tokens, Listed refuses pieces stop taken tokens
        ((listing.failure.map .failure).or stop) ∧
      listing.output = listings tokens ∧ listing.records = taken.map Piece.record := by
  intro listing
  induction pieces with
  | nil => exact ⟨[], [], .all nofun, rfl, rfl⟩
  | cons piece rest ih =>
    obtain ⟨taken, tokens, hlisted, houtput, hrecords⟩ := ih
    cases piece with
    | ignored text => exact ⟨_, tokens, hlisted.cons_ignored, houtput, congrArg _ hrecords⟩
    | token token =>
      cases htoken : refuses token.listing with
      | some f =>
        have hlisting : listing = { records := [.token token], failure := some f } :=
          list_refused htoken _
        rw [hlisting]
        exact ⟨[.token token], [],
          .refused (List.nil_append _).symm nofun ⟨token, rfl, htoken⟩, rfl, rfl⟩
      | none =>
        have hlisting := list_token htoken (rest.map Piece.record)
        refine ⟨.token token :: taken, token :: tokens, ?_, ?_, ?_⟩
        · rw [show listing = _ from hlisting]
          exact hlisted.cons_token htoken
        · rw [show listing = _ from hlisting, houtput, listings, listings,
            List.flatMap_cons]
        · rw [show listing = _ from hlisting, hrecords]
          rfl

end Listed

end Munch.CommandLine
