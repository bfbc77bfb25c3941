import BpScript.Number
import BpScript.Proofs.Spelling

/-!
# Numerals hold numbers

What a source spells as a number is digits, and perhaps a point with more digits or nothing behind
it.  A text of this form is always read as a number, so nothing has to be said of number tokens that
hold none.

* `Number.IsNumeral` — texts of this form.
* `IsNumeral.exists_parse?` — they hold numbers.
* `Lexeme.isNumeral_read` — no other text is read as a token of a number.
* `exists_number_of_tokenize` — the tokens of a source.
-/

namespace BpScript

/-! ## Texts -/

namespace Number

/-- Digits, of which there is at least one, and perhaps a point behind them, where digits may go on
or not. -/
inductive IsNumeral : List Char → Prop where
  | whole {digit : Char} {more : List Char} : (∀ c ∈ digit :: more, c.isDigit = true) →
      IsNumeral (digit :: more)
  | fraction {digit : Char} {more fraction : List Char} :
      (∀ c ∈ digit :: more, c.isDigit = true) → (∀ c ∈ fraction, c.isDigit = true) →
      IsNumeral (digit :: more ++ '.' :: fraction)

namespace IsNumeral

variable {cs : List Char}

/-- A numeral starts with a digit, so there is no sign to take off. -/
theorem splitSign_eq (h : IsNumeral cs) : splitSign cs = (false, cs) := by
  have hstart : ∃ digit more, cs = digit :: more ∧ digit.isDigit = true := by
    cases h with
    | whole hdigits => exact ⟨_, _, rfl, hdigits _ List.mem_cons_self⟩
    | fraction hdigits => exact ⟨_, _, rfl, hdigits _ List.mem_cons_self⟩
  obtain ⟨digit, more, rfl, hdigit⟩ := hstart
  unfold splitSign
  split
  · next heq =>
    cases heq
    cases hdigit
  · next heq =>
    cases heq
    cases hdigit
  · rfl

/-- The digits in front of the point are read as the whole part, those behind it as the fraction,
and nothing is left. -/
theorem exists_parseDecimal? (h : IsNumeral cs) : ∃ d, parseDecimal? cs = some d := by
  cases h with
  | whole hdigits =>
    obtain ⟨htake, hdrop⟩ := @takeWhile_run _ _ [] hdigits (by simp)
    rw [List.append_nil] at htake hdrop
    simp only [parseDecimal?, htake, hdrop]
    exact ⟨_, rfl⟩
  | @fraction digit more fraction hdigits hfraction =>
    obtain ⟨htake, hdrop⟩ := @takeWhile_run _ _ ('.' :: fraction) hdigits (by simp)
    obtain ⟨htake', hdrop'⟩ := @takeWhile_run _ _ [] hfraction (by simp)
    rw [List.append_nil] at htake' hdrop'
    simp only [parseDecimal?, htake, hdrop, htake', hdrop']
    exact ⟨_, rfl⟩

theorem exists_parse? {text : String} (h : IsNumeral text.toList) :
    ∃ value, parse? text = some value := by
  obtain ⟨d, hd⟩ := h.exists_parseDecimal?
  have hunsigned : ∃ value, parseUnsigned? text.toList = some value := by
    simp only [parseUnsigned?, hd]
    split
    · exact ⟨_, rfl⟩
    · split
      · exact ⟨_, rfl⟩
      · exact ⟨d.toFloat, rfl⟩
  obtain ⟨value, hvalue⟩ := hunsigned
  exact ⟨value, by simp [parse?, h.splitSign_eq, hvalue]⟩

end IsNumeral
end Number

/-! ## Tokens -/

namespace Lexeme

theorem isNumeral_readNumber {digit : Char} {cs : List Char} (hdigit : digit.isDigit = true)
    {kind : TokenKind} {word : String}
    (h : (readNumber digit cs).reading = .ok (kind, word)) : Number.IsNumeral word.toList := by
  have hdigits : ∀ text : List Char, ∀ c ∈ text.takeWhile Char.isDigit, c.isDigit = true :=
    fun _ _ hc => List.mem_takeWhile_imp hc
  have hwhole : ∀ c ∈ digit :: cs.takeWhile Char.isDigit, c.isDigit = true :=
    List.forall_mem_cons.2 ⟨hdigit, hdigits cs⟩
  unfold readNumber at h
  split at h
  · cases h
    rw [String.toList_ofList]
    exact .fraction hwhole (hdigits _)
  · cases h
    rw [String.toList_ofList]
    exact .whole hwhole

theorem ne_number_of_single? {c : Char} {kind : TokenKind} (h : single? c = some kind) :
    kind ≠ .int ∧ kind ≠ .float := by
  unfold single? at h
  split at h
  case h_16 => cases h
  all_goals
    cases h
    simp

/-- Only a digit starts a number. -/
theorem isNumeral_read {c : Char} {cs : List Char} {kind : TokenKind} {word : String}
    (h : (read c cs).reading = .ok (kind, word)) (hkind : kind = .int ∨ kind = .float) :
    Number.IsNumeral word.toList := by
  by_cases hdigit : c.isDigit = true
  · rw [read_digit hdigit] at h
    exact isNumeral_readNumber hdigit h
  · have hother : kind ≠ .int ∧ kind ≠ .float := by
      unfold read at h
      split at h
      case h_13 => cases h
      case h_16 =>
        split at h
        · next hsingle =>
          cases h
          exact ne_number_of_single? hsingle
        · split at h
          · simp only [readWord] at h
            split at h <;> (cases h; simp)
          · cases h
      all_goals
        cases h
        simp
    rcases hkind with hkind | hkind
    · exact absurd hkind hother.1
    · exact absurd hkind hother.2

end Lexeme

/-- Every token but the last one was read from the text. -/
theorem Scanner.exists_read_of_mem (s : Scanner) : ∀ {tokens : List Token},
    s.steps.mapM id = .ok tokens → ∀ token ∈ tokens, token.kind = .eof ∨
      ∃ c cs, (Lexeme.read c cs).reading = .ok (token.kind, token.lexeme) := by
  induction s using Scanner.steps.induct with
  | case1 s hrest =>
    intro tokens hrun token htoken
    rw [steps_of_nil hrest] at hrun
    cases hrun
    rw [List.mem_singleton.1 htoken]
    exact .inl rfl
  | case2 s c cs hrest lexeme =>
    rename_i ih
    intro tokens hrun token htoken
    rw [steps_of_cons hrest] at hrun
    obtain ⟨first, further, hfirst, hfurther, rfl⟩ := mapM_id_cons_eq_ok hrun
    rcases List.mem_cons.1 htoken with rfl | htoken
    · exact .inr ⟨c, cs, (outcome_eq_ok hfirst).1⟩
    · exact ih hfurther token htoken

/-- The tokens of numbers hold numbers. -/
theorem exists_number_of_tokenize {source : Source} {tokens : List Token}
    (h : tokenize source = .ok tokens) {token : Token} (htoken : token ∈ tokens)
    (hkind : token.kind = .int ∨ token.kind = .float) :
    ∃ value, Number.parse? token.lexeme = some value := by
  rcases Scanner.exists_read_of_mem _ h token htoken with heof | ⟨c, cs, hread⟩
  · rcases hkind with hkind | hkind <;> exact absurd (heof.symm.trans hkind) (by decide)
  · exact (Lexeme.isNumeral_read hread hkind).exists_parse?

end BpScript
