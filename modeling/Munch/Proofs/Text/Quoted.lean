import Munch.Text.Quoted

/-! Quoted texts.

Whatever is in a text, its quoted form has printable characters only
(`isPrintable_of_mem_quoted`): what is not printable is written as an escape, and
escapes are made of letters, digits and a backslash. -/
namespace Munch.Text

namespace Quoted
variable {stands : Point → Bool} {quote c d : Point}

theorem mem_hexDigits {n width : Nat} (h : c ∈ hexDigits n width) :
    ∃ d < 16, c = .char (hexDigit d) := by
  induction width generalizing n with
  | zero => cases h
  | succ width ih =>
    rcases List.mem_append.mp h with hfirst | hlast
    · exact ih hfirst
    · exact ⟨n % 16, Nat.mod_lt n (by decide), List.mem_singleton.mp hlast⟩

theorem isPrintable_hexDigit : ∀ n < 16, isPrintable (hexDigit n) = true := by decide

theorem isPrintable_of_mem_hexDigits {n width : Nat} (h : c ∈ hexDigits n width) :
    isPrintable c = true := by
  obtain ⟨d, hd, rfl⟩ := mem_hexDigits h
  exact isPrintable_hexDigit d hd

theorem isPrintable_of_mem_codeEscape (h : d ∈ codeEscape c) : isPrintable d = true := by
  have hescape : ∀ (letter : Point) (width : Nat), isPrintable letter = true →
      d ∈ Point.char '\\' :: letter :: hexDigits c.toNat width → isPrintable d = true := by
    intro letter width hletter hmem
    rcases List.mem_cons.mp hmem with rfl | hrest
    · decide
    · rcases List.mem_cons.mp hrest with rfl | hdigits
      · exact hletter
      · exact isPrintable_of_mem_hexDigits hdigits
  rw [codeEscape] at h
  split at h
  · exact hescape 'x' 2 (by decide) h
  · split at h
    · exact hescape 'u' 4 (by decide) h
    · exact hescape 'U' 8 (by decide) h

/-- The written form of a character is printable, if what may stand as it is and the quote
are. -/
theorem isPrintable_of_mem_encodeChar (hstands : ∀ c, stands c = true → isPrintable c = true)
    (hquote : isPrintable quote = true) (h : d ∈ encodeChar stands quote c) :
    isPrintable d = true := by
  have hpair : ∀ e, isPrintable e = true → d ∈ [Point.char '\\', e] → isPrintable d = true := by
    intro e he hmem
    rw [List.mem_cons, List.mem_singleton] at hmem
    rcases hmem with rfl | rfl
    · decide
    · exact he
  rw [encodeChar] at h
  split at h
  next hc =>
    refine hpair c ?_ h
    rcases hc with rfl | rfl
    · exact hquote
    · decide
  split at h
  · exact hpair 't' (by decide) h
  split at h
  · exact hpair 'n' (by decide) h
  split at h
  · exact hpair 'r' (by decide) h
  split at h
  next hc =>
    rw [List.mem_singleton.mp h]
    exact hstands c hc
  · exact isPrintable_of_mem_codeEscape h

theorem isPrintable_quoteOf (text : Text) : isPrintable (quoteOf text) = true := by
  rw [quoteOf]
  split <;> decide

end Quoted

/-- **Quoted texts are printable.** -/
theorem isPrintable_of_mem_quoted {text : Text} {c : Point} (h : c ∈ quoted text) :
    isPrintable c = true := by
  have hquote := Quoted.isPrintable_quoteOf text
  rw [quoted, Quoted.encode] at h
  rcases List.mem_cons.mp h with rfl | hrest
  · exact hquote
  · rcases List.mem_append.mp hrest with hinside | hlast
    · obtain ⟨d, -, hd⟩ := List.mem_flatMap.mp hinside
      exact Quoted.isPrintable_of_mem_encodeChar (fun _ => id) hquote hd
    · rw [List.mem_singleton.mp hlast]
      exact hquote

theorem notMem_quoted {c : Point} (hc : isPrintable c = false) (text : Text) :
    c ∉ quoted text := by
  intro h
  rw [isPrintable_of_mem_quoted h] at hc
  cases hc

end Munch.Text
