import Mathlib.Data.Int.Basic
import Mathlib.Data.List.Basic

/-!
Reading words and decimal numbers from the front of a text, as an input stream does: blanks before
a field are skipped, and a field ends where no further character belongs to it.
-/
namespace Streams

/-- The white space of the C locale. -/
def isSpace (c : Char) : Bool :=
  c == ' ' || c == '\t' || c == '\n' || c == '\x0b' || c == '\x0c' || c == '\r'

def skip (text : List Char) : List Char := text.dropWhile isSpace

/-- A word, empty at the end of the text, and what follows. -/
def readWord (text : List Char) : List Char × List Char :=
  ((skip text).takeWhile (!isSpace ·), (skip text).dropWhile (!isSpace ·))

def digitValue (c : Char) : ℕ := c.toNat - '0'.toNat

/-- The number that digits are written for. -/
def value (digits : List Char) : ℕ := digits.foldl (fun n d => 10 * n + digitValue d) 0

def readDigits (negative : Bool) (text : List Char) : Option (ℤ × List Char) :=
  let digits := text.takeWhile Char.isDigit
  if digits = [] then none
  else some (if negative then -(value digits : ℤ) else value digits, text.dropWhile Char.isDigit)

/-- A number with an optional sign, without blanks before it. -/
def readSigned : List Char → Option (ℤ × List Char)
  | '-' :: text => readDigits true text
  | '+' :: text => readDigits false text
  | text => readDigits false text

/-! ### Well-formed text -/

/-- The words of a text, with any blanks around them. -/
inductive Words : List Char → List (List Char) → Prop
  | blank {text : List Char} (h : ∀ c ∈ text, isSpace c = true) : Words text []
  | word {pad word rest : List Char} {words : List (List Char)}
      (hpad : ∀ c ∈ pad, isSpace c = true) (hword : ∀ c ∈ word, isSpace c = false)
      (hne : word ≠ []) (hend : ∀ c, rest.head? = some c → isSpace c = true)
      (h : Words rest words) : Words (pad ++ (word ++ rest)) (word :: words)

/-- A word that is a decimal number. -/
inductive Numeral : List Char → ℤ → Prop
  | plain {digits : List Char} (hne : digits ≠ []) (h : ∀ d ∈ digits, d.isDigit = true) :
      Numeral digits (value digits)
  | positive {digits : List Char} (hne : digits ≠ []) (h : ∀ d ∈ digits, d.isDigit = true) :
      Numeral ('+' :: digits) (value digits)
  | negative {digits : List Char} (hne : digits ≠ []) (h : ∀ d ∈ digits, d.isDigit = true) :
      Numeral ('-' :: digits) (-(value digits))

theorem takeWhile_append {p : Char → Bool} {front rest : List Char} (h : ∀ c ∈ front, p c = true)
    (hend : ∀ c, rest.head? = some c → p c = false) : (front ++ rest).takeWhile p = front := by
  rw [List.takeWhile_append_of_pos h]
  cases rest with
  | nil => simp
  | cons c rest => simp [hend c rfl]

theorem dropWhile_append {p : Char → Bool} {front rest : List Char} (h : ∀ c ∈ front, p c = true)
    (hend : ∀ c, rest.head? = some c → p c = false) : (front ++ rest).dropWhile p = rest := by
  rw [List.dropWhile_append_of_pos h]
  cases rest with
  | nil => rfl
  | cons c rest => simp [hend c rfl]

/-- The blanks before a word are skipped. -/
theorem skip_word {pad word rest : List Char} (hpad : ∀ c ∈ pad, isSpace c = true)
    (hword : ∀ c ∈ word, isSpace c = false) (hne : word ≠ []) :
    skip (pad ++ (word ++ rest)) = word ++ rest := by
  apply dropWhile_append hpad
  intro c hc
  obtain ⟨d, word, rfl⟩ := List.exists_cons_of_ne_nil hne
  obtain rfl : d = c := Option.some.inj hc
  exact hword d (by simp)

/-- Reading a word takes the first one. -/
theorem Words.readWord {text word : List Char} {words : List (List Char)}
    (h : Words text (word :: words)) :
    ∃ rest, readWord text = (word, rest) ∧ Words rest words := by
  cases h with
  | @word pad _ rest _ hpad hword hne hend h =>
    refine ⟨rest, ?_, h⟩
    have hin : ∀ c ∈ word, (!isSpace c) = true := fun c hc => by rw [hword c hc]; rfl
    have hout : ∀ c, rest.head? = some c → (!isSpace c) = false :=
      fun c hc => by rw [hend c hc]; rfl
    unfold Streams.readWord
    rw [skip_word hpad hword hne, takeWhile_append hin hout, dropWhile_append hin hout]

theorem isDigit_of_space {c : Char} (h : isSpace c = true) : c.isDigit = false := by
  unfold isSpace at h
  simp only [Bool.or_eq_true, beq_iff_eq] at h
  obtain ((((rfl | rfl) | rfl) | rfl) | rfl) | rfl := h
  all_goals decide

theorem readDigits_append {negative : Bool} {digits rest : List Char} (hne : digits ≠ [])
    (h : ∀ d ∈ digits, d.isDigit = true) (hend : ∀ c, rest.head? = some c → isSpace c = true) :
    readDigits negative (digits ++ rest)
      = some (if negative then -(value digits : ℤ) else value digits, rest) := by
  have hstop : ∀ c, rest.head? = some c → c.isDigit = false :=
    fun c hc => isDigit_of_space (hend c hc)
  unfold readDigits
  rw [takeWhile_append h hstop, dropWhile_append h hstop]
  exact if_neg hne

/-- A number is read to its end. -/
theorem Numeral.readSigned {word rest : List Char} {n : ℤ} (h : Numeral word n)
    (hend : ∀ c, rest.head? = some c → isSpace c = true) :
    readSigned (word ++ rest) = some (n, rest) := by
  cases h with
  | plain hne h =>
    obtain ⟨d, digits, rfl⟩ := List.exists_cons_of_ne_nil hne
    have hdigit : d.isDigit = true := h d (by simp)
    have hsigns : d ≠ '-' ∧ d ≠ '+' := by
      constructor
      · rintro rfl
        exact absurd hdigit (by decide)
      · rintro rfl
        exact absurd hdigit (by decide)
    refine Eq.trans ?_ (@readDigits_append false _ _ hne h hend)
    rw [List.cons_append]
    unfold Streams.readSigned
    split
    · next heq => exact absurd (List.cons.inj heq).1 hsigns.1
    · next heq => exact absurd (List.cons.inj heq).1 hsigns.2
    · rfl
  | positive hne h => exact readDigits_append hne h hend
  | negative hne h => exact readDigits_append hne h hend

/-- A number starts with a digit or a sign. -/
theorem Numeral.head {word : List Char} {n : ℤ} (h : Numeral word n) {c : Char}
    (hc : word.head? = some c) : c.isDigit = true ∨ c = '+' ∨ c = '-' := by
  cases h with
  | plain hne h =>
    obtain ⟨d, digits, rfl⟩ := List.exists_cons_of_ne_nil hne
    obtain rfl : d = c := Option.some.inj hc
    exact .inl (h d (by simp))
  | positive => exact .inr (.inl (Option.some.inj hc).symm)
  | negative => exact .inr (.inr (Option.some.inj hc).symm)

/-- The next field of a text, where it is a number. -/
theorem Words.readSigned {text word : List Char} {words : List (List Char)} {n : ℤ}
    (h : Words text (word :: words)) (hn : Numeral word n) :
    ∃ rest, Streams.readSigned (skip text) = some (n, rest) ∧ Words rest words := by
  cases h with
  | @word pad _ rest _ hpad hword hne hend h =>
    refine ⟨rest, ?_, h⟩
    rw [skip_word hpad hword hne]
    exact hn.readSigned hend

/-- A number alone. -/
theorem Numeral.readSigned_self {word : List Char} {n : ℤ} (h : Numeral word n) :
    Streams.readSigned word = some (n, []) := by
  have hend : ∀ c, ([] : List Char).head? = some c → isSpace c = true := fun c hc => by cases hc
  rw [← h.readSigned hend, List.append_nil]

/-- Without blanks before a word, nothing is skipped. -/
theorem Words.skip_word {text word : List Char} {words : List (List Char)}
    (h : Words text (word :: words)) : skip word = word := by
  cases h with
  | @word pad _ rest _ hpad hword hne hend h =>
    have hskip := @Streams.skip_word [] word [] (by simp) hword hne
    simpa using hskip

end Streams
