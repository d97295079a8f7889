import Mathlib.Data.List.TakeWhile
import Voicetext.Common.Text

/-!
# JSON documents and their compact text

A document keeps what its text says: number literals as they are spelled and object members in the
order they are written. Writing is compact, with the short escapes where they exist, so the text of
a document is bounded by the text it carries.
-/

namespace Voicetext.Common

/-- A character which may occur in a number. -/
def isNumberChar (c : Char) : Bool :=
  c.isDigit || c = '-' || c = '+' || c = '.' || c = 'e' || c = 'E'

namespace NumberLiteral

/-- Read one or more digits. -/
def digits : List Char → Option (List Char)
  | [] => none
  | c :: rest => if c.isDigit then some (rest.dropWhile Char.isDigit) else none

/-- Read an integer part, which has no leading zero. -/
def integer (cs : List Char) : Option (List Char) :=
  if cs.head? = some '0' then some cs.tail else digits cs

/-- Read an optional fraction. -/
def fraction (cs : List Char) : Option (List Char) :=
  if cs.head? = some '.' then digits cs.tail else some cs

/-- Read an optional exponent. -/
def exponent (cs : List Char) : Option (List Char) :=
  if cs.head? = some 'e' ∨ cs.head? = some 'E' then
    digits (if cs.tail.head? = some '+' ∨ cs.tail.head? = some '-' then cs.tail.tail else cs.tail)
  else some cs

end NumberLiteral

/-- Whether characters spell a JSON number. -/
def isNumber (cs : List Char) : Bool :=
  cs.all isNumberChar &&
    (((NumberLiteral.integer (if cs.head? = some '-' then cs.tail else cs)).bind
      NumberLiteral.fraction).bind NumberLiteral.exponent) = some []

/-- The spelling of a JSON number. -/
structure NumberLiteral where
  chars : List Char
  valid : isNumber chars = true
deriving DecidableEq

namespace NumberLiteral

/-- Every character of a number is a number character. -/
theorem isNumberChar_of_mem (literal : NumberLiteral) {c : Char} (h : c ∈ literal.chars) :
    isNumberChar c = true := by
  have hvalid := literal.valid
  unfold isNumber at hvalid
  exact List.all_eq_true.mp (Bool.and_eq_true_iff.mp hvalid).1 c h

/-- A number has at least one character. -/
theorem chars_ne_nil (literal : NumberLiteral) : literal.chars ≠ [] := by
  intro h
  have hvalid := literal.valid
  rw [h] at hvalid
  exact absurd hvalid (by decide)

/-- Decimal digits do not start with a zero, unless they are zero. -/
theorem head_toDigits {n : ℕ} (h : 0 < n) : (Nat.toDigits 10 n).head? ≠ some '0' := by
  induction n using Nat.strong_induction_on with
  | _ n ih =>
    rw [Nat.toDigits_eq_if (by decide)]
    split
    · rename_i hlt
      have hdigit : ∀ m < 10, 0 < m → [Nat.digitChar m].head? ≠ some '0' := by decide
      exact hdigit n hlt h
    · rename_i hge
      have hquotient : 0 < n / 10 := Nat.div_pos (by omega) (by decide)
      rw [List.head?_append_of_ne_nil _ Nat.toDigits_ne_nil]
      exact ih (n / 10) (by omega) hquotient

theorem isDigit_of_mem_toDigits {n : ℕ} {c : Char} (h : c ∈ Nat.toDigits 10 n) : c.isDigit = true :=
  Nat.isDigit_of_mem_toDigits (by decide) (by decide) h

/-- Decimal digits are the integer part of what they start. -/
theorem integer_toDigits_append (n : ℕ) {rest : List Char}
    (hrest : ∀ c ∈ rest.head?, c.isDigit = false) :
    integer (Nat.toDigits 10 n ++ rest) = some rest := by
  rcases Nat.eq_zero_or_pos n with rfl | hpos
  · rfl
  have hzero := head_toDigits hpos
  cases hchars : Nat.toDigits 10 n with
  | nil => exact absurd hchars Nat.toDigits_ne_nil
  | cons c digits =>
    have hdigit : ∀ d ∈ c :: digits, d.isDigit = true := fun d hd =>
      isDigit_of_mem_toDigits (hchars ▸ hd)
    have hdrop : (digits ++ rest).dropWhile Char.isDigit = rest := by
      rw [List.dropWhile_append_of_pos fun d hd => hdigit d (List.mem_cons_of_mem c hd)]
      cases rest with
      | nil => rfl
      | cons d after => rw [List.dropWhile_cons_of_neg (by simp [hrest d rfl])]
    rw [hchars] at hzero
    rw [List.cons_append, integer, List.head?_cons, if_neg (by simpa using hzero),
      NumberLiteral.digits, if_pos (hdigit c List.mem_cons_self), hdrop]

/-- Decimal digits do not start with a sign. -/
theorem head_toDigits_append_ne_minus (n : ℕ) (rest : List Char) :
    (Nat.toDigits 10 n ++ rest).head? ≠ some '-' := by
  rw [List.head?_append_of_ne_nil _ Nat.toDigits_ne_nil]
  intro hhead
  exact absurd (isDigit_of_mem_toDigits (List.mem_of_mem_head? hhead)) (by decide)

/-- Decimal digits are a number. -/
theorem isNumber_toDigits (n : ℕ) : isNumber (Nat.toDigits 10 n) = true := by
  have hall : (Nat.toDigits 10 n).all isNumberChar = true :=
    List.all_eq_true.mpr fun d hd => by simp [isNumberChar, isDigit_of_mem_toDigits hd]
  have hminus := head_toDigits_append_ne_minus n []
  have hinteger : integer (Nat.toDigits 10 n) = some [] := by
    have hnothing : ∀ c ∈ ([] : List Char).head?, c.isDigit = false := by simp
    simpa using integer_toDigits_append n hnothing
  rw [List.append_nil] at hminus
  rw [isNumber, hall, if_neg hminus, hinteger]
  rfl

/-- The spelling of a natural number. -/
def ofNat (n : ℕ) : NumberLiteral := ⟨Nat.toDigits 10 n, isNumber_toDigits n⟩

/-- The spelling of a 64-bit unsigned integer. -/
def ofU64 (n : UInt64) : NumberLiteral := ofNat n.toNat

/-- The 64-bit unsigned integer a literal spells; a sign, fraction or exponent is refused. -/
def asU64 (literal : NumberLiteral) : Option UInt64 :=
  if literal.chars.all Char.isDigit then
    let n := Nat.ofDigitChars 10 literal.chars 0
    if n < 2 ^ 64 then some (UInt64.ofNat n) else none
  else none

/-- An integer is read back from its spelling. -/
@[simp] theorem asU64_ofU64 (n : UInt64) : asU64 (ofU64 n) = some n := by
  have hdigits : (Nat.toDigits 10 n.toNat).all Char.isDigit = true :=
    List.all_eq_true.mpr fun c hc => Nat.isDigit_of_mem_toDigits (by decide) (by decide) hc
  have hchars : (ofU64 n).chars = Nat.toDigits 10 n.toNat := rfl
  unfold asU64
  rw [hchars, if_pos hdigits, Nat.ofDigitChars_ten_toDigits]
  dsimp only
  rw [if_pos n.toNat_lt, UInt64.ofNat_toNat]

/-- A number is spelled in ASCII. -/
theorem bytes_chars (literal : NumberLiteral) : Text.bytes literal.chars = literal.chars.length := by
  refine Text.bytes_of_ascii fun c hc => ?_
  have hchar := literal.isNumberChar_of_mem hc
  simp only [isNumberChar, Bool.or_eq_true, decide_eq_true_eq] at hchar
  rcases hchar with ((((hdigit | rfl) | rfl) | rfl) | rfl) | rfl
  · have hle := (Bool.and_eq_true_iff.mp hdigit).2
    exact lt_of_le_of_lt (UInt32.le_iff_toNat_le.mp (of_decide_eq_true hle)) (by decide)
  all_goals decide

/-- A 64-bit integer has at most twenty digits. -/
theorem bytes_ofU64_le (n : UInt64) : Text.bytes (ofU64 n).chars ≤ 20 := by
  rw [bytes_chars]
  exact (Nat.length_toDigits_le_iff (by decide) (by decide)).mpr
    (lt_of_lt_of_le n.toNat_lt (by decide))

end NumberLiteral

/-- A JSON document. -/
inductive Json
  | null
  | bool (value : Bool)
  | number (literal : NumberLiteral)
  | string (value : String)
  | array (items : List Json)
  | object (members : List (String × Json))

namespace Json

/-- The escape of one character inside a string. -/
def escapeChar (c : Char) : List Char :=
  if c = '"' then ['\\', '"']
  else if c = '\\' then ['\\', '\\']
  else if c = '\n' then ['\\', 'n']
  else if c = '\r' then ['\\', 'r']
  else if c = '\t' then ['\\', 't']
  else if c = '\x08' then ['\\', 'b']
  else if c = '\x0c' then ['\\', 'f']
  else if c.toNat < 0x20 then
    ['\\', 'u', '0', '0', Nat.digitChar (c.toNat / 16), Nat.digitChar (c.toNat % 16)]
  else [c]

/-- The escaped characters of a string and its closing quote. -/
def escape : List Char → List Char
  | [] => ['"']
  | c :: rest => escapeChar c ++ escape rest

/-- A quoted string. -/
def quoted (value : String) : List Char := '"' :: escape value.toList

mutual

/-- The compact text of a document. -/
def write : Json → List Char
  | null => ['n', 'u', 'l', 'l']
  | bool true => ['t', 'r', 'u', 'e']
  | bool false => ['f', 'a', 'l', 's', 'e']
  | number literal => literal.chars
  | string value => quoted value
  | array items => '[' :: (writeItems items ++ [']'])
  | object members => '{' :: (writeMembers members ++ ['}'])

/-- The items of an array, separated by commas. -/
def writeItems : List Json → List Char
  | [] => []
  | [item] => write item
  | item :: rest => write item ++ ',' :: writeItems rest

/-- The members of an object, separated by commas. -/
def writeMembers : List (String × Json) → List Char
  | [] => []
  | [(key, value)] => quoted key ++ ':' :: write value
  | (key, value) :: rest => quoted key ++ ':' :: (write value ++ ',' :: writeMembers rest)

end

/-- The compact text of a document. -/
def toText (doc : Json) : String := String.ofList (write doc)

mutual

/-- How deeply arrays and objects are nested. -/
def depth : Json → ℕ
  | array items => itemsDepth items + 1
  | object members => membersDepth members + 1
  | _ => 0

def itemsDepth : List Json → ℕ
  | [] => 0
  | item :: rest => max item.depth (itemsDepth rest)

def membersDepth : List (String × Json) → ℕ
  | [] => 0
  | (_, value) :: rest => max value.depth (membersDepth rest)

end

theorem itemsDepth_map_le {α : Type} {f : α → Json} {values : List α} {n : ℕ}
    (h : ∀ value ∈ values, (f value).depth ≤ n) : itemsDepth (values.map f) ≤ n := by
  induction values with
  | nil => exact Nat.zero_le n
  | cons value rest ih =>
    exact max_le (h value (List.mem_cons_self ..))
      (ih fun other hother => h other (List.mem_cons_of_mem _ hother))

/-- One character is escaped to at most six times its own size. -/
theorem bytes_escapeChar_le (c : Char) : Text.bytes (escapeChar c) ≤ 6 * c.utf8Size := by
  have hpos := c.utf8Size_pos
  have hshort : ∀ a b : Char, a.utf8Size = 1 → b.utf8Size = 1 →
      Text.bytes [a, b] ≤ 6 * c.utf8Size := by
    intro a b ha hb
    simp only [Text.bytes_cons, ha, hb, Text.bytes_nil]
    omega
  unfold escapeChar
  split; · exact hshort _ _ (by decide) (by decide)
  split; · exact hshort _ _ (by decide) (by decide)
  split; · exact hshort _ _ (by decide) (by decide)
  split; · exact hshort _ _ (by decide) (by decide)
  split; · exact hshort _ _ (by decide) (by decide)
  split; · exact hshort _ _ (by decide) (by decide)
  split; · exact hshort _ _ (by decide) (by decide)
  split
  · have hhex : ∀ n < 16, (Nat.digitChar n).utf8Size = 1 := by decide
    have hhigh := hhex (c.toNat / 16) (by omega)
    have hlow := hhex (c.toNat % 16) (by omega)
    have hfixed : Text.bytes ['\\', 'u', '0', '0'] = 4 := by decide
    change Text.bytes (['\\', 'u', '0', '0'] ++ [_, _]) ≤ _
    simp only [Text.bytes_append, hfixed, Text.bytes_cons, hhigh, hlow, Text.bytes_nil]
    omega
  · simp only [Text.bytes_cons, Text.bytes_nil]
    omega

/-- A quoted string is bounded by the string it quotes. -/
theorem bytes_quoted_le (value : String) : Text.bytes (quoted value) ≤ 6 * Text.len value + 2 := by
  have hescape : ∀ cs : List Char, Text.bytes (escape cs) ≤ 6 * Text.bytes cs + 1 := by
    intro cs
    induction cs with
    | nil => decide
    | cons c rest ih =>
      have hc := bytes_escapeChar_le c
      simp only [escape, Text.bytes_append, Text.bytes_cons]
      omega
  have hquote : ('"' : Char).utf8Size = 1 := by decide
  have hvalue := hescape value.toList
  rw [← Text.len_eq_bytes] at hvalue
  simp only [quoted, Text.bytes_cons, hquote]
  omega

/-- A character which needs no escape. -/
def isPlain (c : Char) : Bool := c ≠ '"' && c ≠ '\\' && 0x20 ≤ c.toNat

/-- A plain character is written as it is. -/
theorem escapeChar_of_isPlain {c : Char} (h : isPlain c = true) : escapeChar c = [c] := by
  simp only [isPlain, Bool.and_eq_true, decide_eq_true_eq] at h
  obtain ⟨⟨hquote, hbackslash⟩, hge⟩ := h
  have hcontrol : ∀ d : Char, d.toNat < 0x20 → c ≠ d := by
    rintro d hd rfl
    omega
  unfold escapeChar
  rw [if_neg hquote, if_neg hbackslash, if_neg (hcontrol _ (by decide)),
    if_neg (hcontrol _ (by decide)), if_neg (hcontrol _ (by decide)),
    if_neg (hcontrol _ (by decide)), if_neg (hcontrol _ (by decide)), if_neg (by omega)]

/-- Plain text is quoted as it is. -/
theorem bytes_quoted_of_plain {value : String} (h : ∀ c ∈ value.toList, isPlain c = true) :
    Text.bytes (quoted value) = Text.len value + 2 := by
  have hescape : ∀ cs : List Char, (∀ c ∈ cs, isPlain c = true) → escape cs = cs ++ ['"'] := by
    intro cs hcs
    induction cs with
    | nil => rfl
    | cons c rest ih =>
      rw [escape, escapeChar_of_isPlain (hcs c (List.mem_cons_self ..)),
        ih fun d hd => hcs d (List.mem_cons_of_mem _ hd)]
      rfl
  have hquote : ('"' : Char).utf8Size = 1 := by decide
  simp only [quoted, hescape _ h, Text.bytes_cons, Text.bytes_append, hquote, Text.bytes_nil,
    Text.len_eq_bytes]
  omega

theorem bytes_write_array (items : List Json) :
    Text.bytes (write (.array items)) = Text.bytes (writeItems items) + 2 := by
  have hopen : ('[' : Char).utf8Size = 1 := by decide
  have hclose : (']' : Char).utf8Size = 1 := by decide
  simp only [write, Text.bytes_cons, Text.bytes_append, hopen, hclose, Text.bytes_nil]
  omega

/-- The items of an array take their own bytes and one comma each, but for the last. -/
theorem bytes_writeItems {items : List Json} (h : items ≠ []) :
    Text.bytes (writeItems items) + 1 = (items.map fun item => Text.bytes (write item) + 1).sum := by
  have hcomma : (',' : Char).utf8Size = 1 := by decide
  induction items with
  | nil => exact absurd rfl h
  | cons item rest ih =>
    cases rest with
    | nil => simp [writeItems]
    | cons next rest =>
      have hrest := ih (List.cons_ne_nil next rest)
      rw [writeItems, Text.bytes_append, Text.bytes_cons, hcomma, List.map_cons, List.sum_cons, ← hrest]
      · omega
      · simp

theorem bytes_writeItems_le (items : List Json) :
    Text.bytes (writeItems items) ≤ (items.map fun item => Text.bytes (write item) + 1).sum := by
  cases items with
  | nil => simp [writeItems]
  | cons item rest =>
    have hitems := bytes_writeItems (List.cons_ne_nil item rest)
    omega

end Json

end Voicetext.Common
