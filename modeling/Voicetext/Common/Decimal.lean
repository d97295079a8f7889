import Mathlib.Data.Rat.Floor
import Mathlib.Tactic.FieldSimp
import Mathlib.Tactic.Ring
import Voicetext.Common.Json

/-!
# Exact decimal values of JSON numbers

A number literal spells an exact rational. A number of thousandths has a shortest decimal spelling
with at least one digit after the point, and reading that spelling gives the number back.
-/

namespace Voicetext.Common.NumberLiteral

/-- The exponent after its letter. -/
def exponentValue (cs : List Char) : ℤ :=
  if cs.head? = some '-' then -(Nat.ofDigitChars 10 cs.tail 0 : ℤ)
  else Nat.ofDigitChars 10 (if cs.head? = some '+' then cs.tail else cs) 0

/-- The value of a number without a sign. -/
def unsignedValue (cs : List Char) : ℚ :=
  let whole := cs.takeWhile Char.isDigit
  let afterWhole := cs.dropWhile Char.isDigit
  let (fraction, afterFraction) :=
    if afterWhole.head? = some '.' then afterWhole.tail.span Char.isDigit else ([], afterWhole)
  Nat.ofDigitChars 10 (whole ++ fraction) 0 *
    (10 : ℚ) ^ (exponentValue afterFraction.tail - fraction.length)

/-- The exact value a literal spells. -/
def toRat (literal : NumberLiteral) : ℚ :=
  if literal.chars.head? = some '-' then -unsignedValue literal.chars.tail
  else unsignedValue literal.chars

/-- The digits after the point of a number of thousandths, without trailing zeros but for the first. -/
def fractionChars (thousandths : ℕ) : List Char :=
  let a := Nat.digitChar (thousandths / 100)
  let b := Nat.digitChar (thousandths / 10 % 10)
  let c := Nat.digitChar (thousandths % 10)
  if thousandths % 10 ≠ 0 then [a, b, c] else if thousandths / 10 % 10 ≠ 0 then [a, b] else [a]

theorem isDigit_fractionChars {thousandths : ℕ} (h : thousandths < 1000) :
    ∀ c ∈ fractionChars thousandths, c.isDigit = true := by
  intro c hc
  unfold fractionChars at hc
  dsimp only at hc
  split_ifs at hc <;> simp only [List.mem_cons, List.not_mem_nil, or_false] at hc <;>
    rcases hc with rfl | rfl | rfl <;> simp only [Nat.isDigit_digitChar, decide_eq_true_eq] <;> omega

/-- A point and digits after decimal digits spell a number. -/
theorem isNumber_point (whole : ℕ) {fraction : List Char} (hne : fraction ≠ [])
    (hdigits : ∀ c ∈ fraction, c.isDigit = true) :
    isNumber (Nat.toDigits 10 whole ++ '.' :: fraction) = true := by
  have hall : (Nat.toDigits 10 whole ++ '.' :: fraction).all isNumberChar = true := by
    refine List.all_eq_true.mpr fun c hc => ?_
    rcases List.mem_append.mp hc with hc | hc
    · simp [isNumberChar, isDigit_of_mem_toDigits hc]
    · rcases List.mem_cons.mp hc with rfl | hc
      · decide
      · simp [isNumberChar, hdigits c hc]
  have hpoint : ∀ c ∈ ('.' :: fraction).head?, c.isDigit = false := by
    rintro c ⟨⟩
    decide
  have hfraction : NumberLiteral.fraction ('.' :: fraction) = some [] := by
    cases fraction with
    | nil => exact absurd rfl hne
    | cons c rest =>
      have hrest : rest.dropWhile Char.isDigit = [] :=
        List.dropWhile_eq_nil_iff.mpr fun d hd => hdigits d (List.mem_cons_of_mem c hd)
      simp [NumberLiteral.fraction, digits, hdigits c List.mem_cons_self, hrest]
  rw [isNumber, hall, if_neg (head_toDigits_append_ne_minus whole _),
    integer_toDigits_append whole hpoint, Option.bind_some, hfraction]
  rfl

/-- The shortest decimal of a number of thousandths. -/
def ofThousandths (n : ℕ) : NumberLiteral :=
  ⟨Nat.toDigits 10 (n / 1000) ++ '.' :: fractionChars (n % 1000),
    isNumber_point _ (by unfold fractionChars; dsimp only; split_ifs <;> simp)
      (isDigit_fractionChars (Nat.mod_lt n (by decide)))⟩

/-- Digits, a point and digits are read as their number over a power of ten. -/
theorem unsignedValue_point (whole : ℕ) {fraction : List Char}
    (hdigits : ∀ c ∈ fraction, c.isDigit = true) :
    unsignedValue (Nat.toDigits 10 whole ++ '.' :: fraction) =
      Nat.ofDigitChars 10 fraction whole / 10 ^ fraction.length := by
  have hwhole : ∀ c ∈ Nat.toDigits 10 whole, c.isDigit = true := fun c hc => isDigit_of_mem_toDigits hc
  have htake : (Nat.toDigits 10 whole ++ '.' :: fraction).takeWhile Char.isDigit =
      Nat.toDigits 10 whole := by
    rw [List.takeWhile_append_of_pos hwhole, List.takeWhile_cons_of_neg (by decide), List.append_nil]
  have hdrop : (Nat.toDigits 10 whole ++ '.' :: fraction).dropWhile Char.isDigit = '.' :: fraction := by
    rw [List.dropWhile_append_of_pos hwhole, List.dropWhile_cons_of_neg (by decide)]
  have hspan : fraction.span Char.isDigit = (fraction, []) := by
    rw [List.span_eq_takeWhile_dropWhile, List.takeWhile_eq_self_iff.mpr hdigits,
      List.dropWhile_eq_nil_iff.mpr hdigits]
  simp only [unsignedValue, htake, hdrop, List.head?_cons, if_true, List.tail_cons, hspan,
    List.tail_nil, exponentValue, Nat.ofDigitChars_append, Nat.ofDigitChars_ten_toDigits]
  simp [div_eq_mul_inv]

/-- The digits after the point spell the thousandths. -/
theorem value_fractionChars (whole : ℕ) {thousandths : ℕ} (h : thousandths < 1000) :
    (Nat.ofDigitChars 10 (fractionChars thousandths) whole : ℚ) /
      10 ^ (fractionChars thousandths).length = whole + (thousandths : ℚ) / 1000 := by
  have ha : thousandths / 100 < 10 := by omega
  have hb : thousandths / 10 % 10 < 10 := by omega
  have hc : thousandths % 10 < 10 := by omega
  unfold fractionChars
  dsimp only
  split_ifs with hthird hsecond
  · have hread : Nat.ofDigitChars 10 [Nat.digitChar (thousandths / 100),
        Nat.digitChar (thousandths / 10 % 10), Nat.digitChar (thousandths % 10)] whole =
          1000 * whole + thousandths := by
      simp only [Nat.ofDigitChars_cons_digitChar_of_lt_ten ha,
        Nat.ofDigitChars_cons_digitChar_of_lt_ten hb, Nat.ofDigitChars_cons_digitChar_of_lt_ten hc,
        Nat.ofDigitChars_nil]
      omega
    rw [hread]
    push_cast [List.length_cons, List.length_nil]
    ring
  · have hread : Nat.ofDigitChars 10 [Nat.digitChar (thousandths / 100),
        Nat.digitChar (thousandths / 10 % 10)] whole = 100 * whole + thousandths / 10 := by
      simp only [Nat.ofDigitChars_cons_digitChar_of_lt_ten ha,
        Nat.ofDigitChars_cons_digitChar_of_lt_ten hb, Nat.ofDigitChars_nil]
      omega
    have hcast : (thousandths : ℚ) = 10 * (thousandths / 10 : ℕ) := by
      exact_mod_cast (by omega : thousandths = 10 * (thousandths / 10))
    rw [hread, hcast]
    push_cast [List.length_cons, List.length_nil]
    ring
  · have hread : Nat.ofDigitChars 10 [Nat.digitChar (thousandths / 100)] whole =
        10 * whole + thousandths / 100 := by
      rw [Nat.ofDigitChars_cons_digitChar_of_lt_ten ha, Nat.ofDigitChars_nil]
    have hcast : (thousandths : ℚ) = 100 * (thousandths / 100 : ℕ) := by
      exact_mod_cast (by omega : thousandths = 100 * (thousandths / 100))
    rw [hread, hcast]
    push_cast [List.length_cons, List.length_nil]
    ring

/-- The spelling of thousandths is read back. -/
theorem toRat_ofThousandths (n : ℕ) : toRat (ofThousandths n) = n / 1000 := by
  have hminus := head_toDigits_append_ne_minus (n / 1000) ('.' :: fractionChars (n % 1000))
  rw [toRat, ofThousandths, if_neg hminus,
    unsignedValue_point _ (isDigit_fractionChars (Nat.mod_lt n (by decide))),
    value_fractionChars _ (Nat.mod_lt n (by decide))]
  have hsplit : (n : ℚ) = 1000 * (n / 1000 : ℕ) + (n % 1000 : ℕ) := by
    exact_mod_cast (Nat.div_add_mod n 1000).symm
  rw [hsplit]
  ring

end Voicetext.Common.NumberLiteral
