import Voicetext.Common.Json

/-!
# Reading JSON text

A recursive-descent reader for the full grammar: surrounding whitespace, every string escape
including surrogate pairs, and a bound on nesting. Each call consumes input, so the length of the
text is enough fuel, and the compact text of any document within the nesting bound reads back as
that document.
-/

namespace Voicetext.Common.Json

/-- A reader stops when nesting exhausts this budget. -/
def RECURSION_LIMIT : ℕ := 128

def isSpace (c : Char) : Bool := c = ' ' || c = '\n' || c = '\t' || c = '\r'

def skipWhitespace (cs : List Char) : List Char := cs.dropWhile isSpace

def hexValue (c : Char) : Option ℕ :=
  if c.isDigit then some (c.toNat - 48)
  else if 'a' ≤ c ∧ c ≤ 'f' then some (c.toNat - 87)
  else if 'A' ≤ c ∧ c ≤ 'F' then some (c.toNat - 55)
  else none

/-- The UTF-16 code unit of four hexadecimal digits. -/
def readUnit : List Char → Option (ℕ × List Char)
  | a :: b :: c :: d :: rest => do
    let unit := 16 * (16 * (16 * (← hexValue a) + (← hexValue b)) + (← hexValue c)) + (← hexValue d)
    return (unit, rest)
  | _ => none

/-- The scalar of a high surrogate and the escaped low surrogate which must follow it. -/
def readSurrogatePair (high : ℕ) : List Char → Option (Char × List Char)
  | '\\' :: 'u' :: rest => do
    let (low, rest) ← readUnit rest
    if 0xDC00 ≤ low ∧ low < 0xE000 then
      return (Char.ofNat (0x10000 + (high - 0xD800) * 0x400 + (low - 0xDC00)), rest)
    else none
  | _ => none

/-- The scalar of a code unit, or of a surrogate pair. -/
def readScalar (unit : ℕ) (cs : List Char) : Option (Char × List Char) :=
  if 0xD800 ≤ unit ∧ unit < 0xDC00 then readSurrogatePair unit cs
  else if 0xDC00 ≤ unit ∧ unit < 0xE000 then none
  else some (Char.ofNat unit, cs)

/-- The character of an escape, after its backslash. -/
def readEscape : List Char → Option (Char × List Char)
  | '"' :: rest => some ('"', rest)
  | '\\' :: rest => some ('\\', rest)
  | '/' :: rest => some ('/', rest)
  | 'b' :: rest => some ('\x08', rest)
  | 'f' :: rest => some ('\x0c', rest)
  | 'n' :: rest => some ('\n', rest)
  | 'r' :: rest => some ('\r', rest)
  | 't' :: rest => some ('\t', rest)
  | 'u' :: rest => (readUnit rest).bind fun unit => readScalar unit.1 unit.2
  | _ => none

/-- The characters of a string, after its opening quote. -/
def readString : ℕ → List Char → Option (List Char × List Char)
  | 0, _ | _, [] => none
  | fuel + 1, c :: rest =>
    if c = '"' then some ([], rest)
    else if c = '\\' then
      (readEscape rest).bind fun escaped =>
        (readString fuel escaped.2).map fun tail => (escaped.1 :: tail.1, tail.2)
    else if c.toNat < 0x20 then none
    else (readString fuel rest).map fun tail => (c :: tail.1, tail.2)

/-- A document spelled by one keyword. -/
def readKeyword (word : List Char) (doc : Json) (cs : List Char) : Option (Json × List Char) :=
  if word.isPrefixOf cs then some (doc, cs.drop word.length) else none

/-- A number, up to the first character which cannot belong to one. -/
def readNumber (cs : List Char) : Option (Json × List Char) :=
  let chars := cs.takeWhile isNumberChar
  if h : isNumber chars = true then some (.number ⟨chars, h⟩, cs.dropWhile isNumberChar) else none

mutual

/-- A value, with the nesting budget left for what is inside it. -/
def readValue : ℕ → ℕ → List Char → Option (Json × List Char)
  | 0, _, _ | _, _, [] => none
  | fuel + 1, budget, c :: rest =>
    if c = '"' then (readString fuel rest).map fun text => (.string (String.ofList text.1), text.2)
    else if c = '[' then
      if budget ≤ 1 then none
      else if (skipWhitespace rest).head? = some ']' then some (.array [], (skipWhitespace rest).tail)
      else (readItems fuel (budget - 1) (skipWhitespace rest)).map fun items => (.array items.1, items.2)
    else if c = '{' then
      if budget ≤ 1 then none
      else if (skipWhitespace rest).head? = some '}' then some (.object [], (skipWhitespace rest).tail)
      else (readMembers fuel (budget - 1) (skipWhitespace rest)).map fun members =>
        (.object members.1, members.2)
    else if c = 'n' then readKeyword ['n', 'u', 'l', 'l'] .null (c :: rest)
    else if c = 't' then readKeyword ['t', 'r', 'u', 'e'] (.bool true) (c :: rest)
    else if c = 'f' then readKeyword ['f', 'a', 'l', 's', 'e'] (.bool false) (c :: rest)
    else readNumber (c :: rest)

/-- The items of a nonempty array, through its closing bracket. -/
def readItems : ℕ → ℕ → List Char → Option (List Json × List Char)
  | 0, _, _ => none
  | fuel + 1, budget, cs =>
    (readValue fuel budget cs).bind fun value =>
      match skipWhitespace value.2 with
      | ',' :: rest => (readItems fuel budget (skipWhitespace rest)).map fun items =>
          (value.1 :: items.1, items.2)
      | ']' :: rest => some ([value.1], rest)
      | _ => none

/-- The members of a nonempty object, through its closing brace. -/
def readMembers : ℕ → ℕ → List Char → Option (List (String × Json) × List Char)
  | fuel + 1, budget, '"' :: cs =>
    (readString fuel cs).bind fun key =>
      match skipWhitespace key.2 with
      | ':' :: rest =>
        (readValue fuel budget (skipWhitespace rest)).bind fun value =>
          match skipWhitespace value.2 with
          | ',' :: rest => (readMembers fuel budget (skipWhitespace rest)).map fun members =>
              ((String.ofList key.1, value.1) :: members.1, members.2)
          | '}' :: rest => some ([(String.ofList key.1, value.1)], rest)
          | _ => none
      | _ => none
  | _, _, _ => none

end

/-- The document a whole text spells. -/
def parse (text : String) : Option Json :=
  (readValue text.toList.length RECURSION_LIMIT (skipWhitespace text.toList)).bind fun doc =>
    if skipWhitespace doc.2 = [] then some doc.1 else none

/-- The text after a value does not continue a number. -/
def Ended (rest : List Char) : Prop := ∀ c ∈ rest.head?, isNumberChar c = false

theorem Ended.cons {c : Char} {rest : List Char} (h : isNumberChar c = false) : Ended (c :: rest) := by
  intro d hd
  obtain rfl := Option.some.inj hd
  exact h

@[simp] theorem skipWhitespace_cons {c : Char} {rest : List Char} (h : isSpace c = false) :
    skipWhitespace (c :: rest) = c :: rest := by
  simp [skipWhitespace, h]

theorem hexValue_digitChar : ∀ n < 16, hexValue (Nat.digitChar n) = some n := by decide

/-- An escaped character is read back. -/
theorem readString_escapeChar (c : Char) (fuel : ℕ) (rest : List Char) :
    readString (fuel + 1) (escapeChar c ++ rest) =
      (readString fuel rest).map fun tail => (c :: tail.1, tail.2) := by
  by_cases hquote : c = '"'
  · subst hquote
    rfl
  by_cases hbackslash : c = '\\'
  · subst hbackslash
    rfl
  by_cases hnewline : c = '\n'
  · subst hnewline
    rfl
  by_cases hreturn : c = '\r'
  · subst hreturn
    rfl
  by_cases htab : c = '\t'
  · subst htab
    rfl
  by_cases hbackspace : c = '\x08'
  · subst hbackspace
    rfl
  by_cases hfeed : c = '\x0c'
  · subst hfeed
    rfl
  by_cases hcontrol : c.toNat < 0x20
  · have hhigh := hexValue_digitChar (c.toNat / 16) (by omega)
    have hlow := hexValue_digitChar (c.toNat % 16) (by omega)
    have hzero : hexValue '0' = some 0 := by decide
    have hunit : readUnit ('0' :: '0' :: Nat.digitChar (c.toNat / 16) ::
        Nat.digitChar (c.toNat % 16) :: rest) = some (c.toNat, rest) := by
      simp only [readUnit, hzero, hhigh, hlow, Option.bind_eq_bind, Option.bind_some, Option.pure_def]
      congr 2
      omega
    have hscalar : readScalar c.toNat rest = some (c, rest) := by
      rw [readScalar, if_neg (by omega), if_neg (by omega), Char.ofNat_toNat]
    rw [escapeChar, if_neg hquote, if_neg hbackslash, if_neg hnewline, if_neg hreturn, if_neg htab,
      if_neg hbackspace, if_neg hfeed, if_pos hcontrol]
    simp only [List.cons_append, List.nil_append, readString]
    rw [if_neg (by decide), if_pos trivial, readEscape, hunit, Option.bind_some, hscalar, Option.bind_some]
  · rw [escapeChar, if_neg hquote, if_neg hbackslash, if_neg hnewline, if_neg hreturn, if_neg htab,
      if_neg hbackspace, if_neg hfeed, if_neg hcontrol]
    simp only [List.cons_append, List.nil_append, readString]
    rw [if_neg hquote, if_neg hbackslash, if_neg hcontrol]

theorem length_escapeChar_pos (c : Char) : 0 < (escapeChar c).length := by
  unfold escapeChar
  split_ifs <;> simp

/-- An escaped string is read back up to its closing quote. -/
theorem readString_escape (cs rest : List Char) {fuel : ℕ} (h : (escape cs).length ≤ fuel) :
    readString fuel (escape cs ++ rest) = some (cs, rest) := by
  induction cs generalizing fuel with
  | nil =>
    obtain ⟨fuel, rfl⟩ : ∃ n, fuel = n + 1 := ⟨fuel - 1, by simp [escape] at h; omega⟩
    rfl
  | cons c cs ih =>
    have hpos := length_escapeChar_pos c
    rw [escape, List.length_append] at h
    obtain ⟨fuel, rfl⟩ : ∃ n, fuel = n + 1 := ⟨fuel - 1, by omega⟩
    rw [escape, List.append_assoc, readString_escapeChar, ih (by omega)]
    rfl

/-- A number is read back when the text does not continue it. -/
theorem readNumber_chars (literal : NumberLiteral) {rest : List Char} (h : Ended rest) :
    readNumber (literal.chars ++ rest) = some (.number literal, rest) := by
  have hall : ∀ c ∈ literal.chars, isNumberChar c = true := fun c hc => literal.isNumberChar_of_mem hc
  have htake : (literal.chars ++ rest).takeWhile isNumberChar = literal.chars := by
    rw [List.takeWhile_append_of_pos hall]
    cases rest with
    | nil => simp
    | cons c rest => simp [h c rfl]
  have hdrop : (literal.chars ++ rest).dropWhile isNumberChar = rest := by
    rw [List.dropWhile_append_of_pos hall]
    cases rest with
    | nil => simp
    | cons c rest => simp [h c rfl]
  unfold readNumber
  simp only [htake, hdrop]
  rw [dif_pos literal.valid]

/-- How a written document starts: no whitespace, and no closing bracket. -/
theorem head_write (doc : Json) :
    ∃ c rest, write doc = c :: rest ∧ isSpace c = false ∧ c ≠ ']' := by
  cases doc with
  | null => exact ⟨_, _, rfl, by decide, by decide⟩
  | bool value => cases value <;> exact ⟨_, _, rfl, by decide, by decide⟩
  | number literal =>
    cases hchars : literal.chars with
    | nil => exact absurd hchars literal.chars_ne_nil
    | cons c rest =>
      have hc := literal.isNumberChar_of_mem (c := c) (by simp [hchars])
      refine ⟨c, rest, by rw [write, hchars], ?_, ?_⟩
      · cases hspace : isSpace c with
        | false => rfl
        | true =>
          simp only [isSpace, Bool.or_eq_true, decide_eq_true_eq] at hspace
          rcases hspace with ((rfl | rfl) | rfl) | rfl <;> exact absurd hc (by decide)
      · rintro rfl
        exact absurd hc (by decide)
  | string value => exact ⟨_, _, by rw [write, quoted], by decide, by decide⟩
  | array items => exact ⟨_, _, by rw [write], by decide, by decide⟩
  | object members => exact ⟨_, _, by rw [write], by decide, by decide⟩

/-- Items are written as their first item and what separates it from the rest. -/
theorem writeItems_cons (item : Json) (rest : List Json) :
    writeItems (item :: rest) = write item ++ if rest = [] then [] else ',' :: writeItems rest := by
  cases rest <;> simp [writeItems]

/-- Members are written as their first member and what separates it from the rest. -/
theorem writeMembers_cons (key : String) (value : Json) (rest : List (String × Json)) :
    writeMembers ((key, value) :: rest) =
      quoted key ++ ':' :: (write value ++ if rest = [] then [] else ',' :: writeMembers rest) := by
  cases rest <;> simp [writeMembers]

/-- What follows the opening bracket of a nonempty array. -/
theorem skip_writeItems (item : Json) (items : List Json) (rest : List Char) :
    skipWhitespace (writeItems (item :: items) ++ rest) = writeItems (item :: items) ++ rest ∧
      (writeItems (item :: items) ++ rest).head? ≠ some ']' := by
  obtain ⟨c, cs, hwrite, hspace, hclose⟩ := head_write item
  rw [writeItems_cons, hwrite]
  simp only [List.cons_append]
  exact ⟨skipWhitespace_cons hspace, by simpa using hclose⟩

mutual

/-- A written document reads back, with the text after it left over. -/
theorem readValue_write : ∀ (doc : Json) (fuel budget : ℕ) (rest : List Char),
    (write doc).length ≤ fuel → doc.depth < budget → Ended rest →
    readValue fuel budget (write doc ++ rest) = some (doc, rest)
  | doc, 0, _, _, hfuel, _, _ => by
    obtain ⟨c, cs, hwrite, _⟩ := head_write doc
    simp [hwrite] at hfuel
  | .null, fuel + 1, _, _, _, _, _ => rfl
  | .bool true, fuel + 1, _, _, _, _, _ => rfl
  | .bool false, fuel + 1, _, _, _, _, _ => rfl
  | .number literal, fuel + 1, budget, rest, _, _, hrest => by
    obtain ⟨c, cs, hchars⟩ := List.exists_cons_of_ne_nil literal.chars_ne_nil
    have hc := literal.isNumberChar_of_mem (c := c) (by simp [hchars])
    have hother : ∀ d : Char, isNumberChar d = false → c ≠ d := by
      rintro d hd rfl
      simp [hd] at hc
    have hread := readNumber_chars literal hrest
    rw [write, hchars, List.cons_append] at *
    rw [readValue, if_neg (hother _ (by decide)), if_neg (hother _ (by decide)),
      if_neg (hother _ (by decide)), if_neg (hother _ (by decide)), if_neg (hother _ (by decide)),
      if_neg (hother _ (by decide)), hread]
  | .string value, fuel + 1, budget, rest, hfuel, _, _ => by
    rw [write, quoted, List.length_cons] at hfuel
    rw [write, quoted, List.cons_append, readValue, if_pos rfl,
      readString_escape _ _ (by omega)]
    simp
  | .array [], fuel + 1, budget, rest, _, hdepth, _ => by
    rw [depth, itemsDepth] at hdepth
    simp only [write, writeItems, List.nil_append, List.cons_append, readValue]
    rw [if_neg (by decide), if_pos trivial, if_neg (by omega), skipWhitespace_cons (by decide)]
    rfl
  | .array (item :: items), fuel + 1, budget, rest, hfuel, hdepth, _ => by
    rw [depth] at hdepth
    rw [write, List.length_cons, List.length_append, List.length_singleton] at hfuel
    obtain ⟨hskip, hhead⟩ := skip_writeItems item items (']' :: rest)
    have hread := readItems_write (item :: items) fuel (budget - 1) rest
      (by simp) (by omega) (by omega)
    rw [write, List.cons_append, List.append_assoc, List.singleton_append, readValue,
      if_neg (by decide), if_pos rfl, if_neg (by omega), hskip, if_neg hhead, hread]
    rfl
  | .object [], fuel + 1, budget, rest, _, hdepth, _ => by
    rw [depth, membersDepth] at hdepth
    simp only [write, writeMembers, List.nil_append, List.cons_append, readValue]
    rw [if_neg (by decide), if_neg (by decide), if_pos trivial, if_neg (by omega),
      skipWhitespace_cons (by decide)]
    rfl
  | .object ((key, value) :: members), fuel + 1, budget, rest, hfuel, hdepth, _ => by
    rw [depth] at hdepth
    rw [write, List.length_cons, List.length_append, List.length_singleton] at hfuel
    have hread := readMembers_write ((key, value) :: members) fuel (budget - 1) rest
      (by simp) (by omega) (by omega)
    have hskip : skipWhitespace (writeMembers ((key, value) :: members) ++ '}' :: rest) =
        writeMembers ((key, value) :: members) ++ '}' :: rest := by
      rw [writeMembers_cons, quoted]
      exact skipWhitespace_cons (by decide)
    have hhead : (writeMembers ((key, value) :: members) ++ '}' :: rest).head? ≠ some '}' := by
      rw [writeMembers_cons, quoted]
      simp
    rw [write, List.cons_append, List.append_assoc, List.singleton_append, readValue,
      if_neg (by decide), if_neg (by decide), if_pos rfl, if_neg (by omega), hskip, if_neg hhead, hread]
    rfl

/-- The written items of a nonempty array read back through the closing bracket. -/
theorem readItems_write : ∀ (items : List Json) (fuel budget : ℕ) (rest : List Char),
    items ≠ [] → (writeItems items).length + 1 ≤ fuel → itemsDepth items < budget →
    readItems fuel budget (writeItems items ++ ']' :: rest) = some (items, rest)
  | [], _, _, _, hne, _, _ => absurd rfl hne
  | item :: items, fuel, budget, rest, _, hfuel, hdepth => by
    obtain ⟨fuel, rfl⟩ : ∃ n, fuel = n + 1 := ⟨fuel - 1, by omega⟩
    rw [itemsDepth] at hdepth
    rw [writeItems_cons, List.length_append] at hfuel
    rw [writeItems_cons, List.append_assoc, readItems]
    by_cases hlast : items = []
    · subst hlast
      rw [if_pos rfl, List.nil_append, readValue_write item fuel budget _ (by omega) (by omega)
        (Ended.cons (by decide)), Option.bind_some]
      simp only [skipWhitespace_cons (c := ']') (by decide)]
    · rw [if_neg hlast, List.length_cons] at hfuel
      obtain ⟨next, items, rfl⟩ := List.exists_cons_of_ne_nil hlast
      have hitems := readItems_write (next :: items) fuel budget rest
        (by simp) (by omega) (by omega)
      rw [if_neg hlast, List.cons_append, readValue_write item fuel budget _ (by omega) (by omega)
        (Ended.cons (by decide)), Option.bind_some]
      simp only [skipWhitespace_cons (c := ',') (by decide),
        (skip_writeItems next items (']' :: rest)).1, hitems]
      rfl

/-- The written members of a nonempty object read back through the closing brace. -/
theorem readMembers_write : ∀ (members : List (String × Json)) (fuel budget : ℕ) (rest : List Char),
    members ≠ [] → (writeMembers members).length + 1 ≤ fuel → membersDepth members < budget →
    readMembers fuel budget (writeMembers members ++ '}' :: rest) = some (members, rest)
  | [], _, _, _, hne, _, _ => absurd rfl hne
  | (key, value) :: members, fuel, budget, rest, _, hfuel, hdepth => by
    obtain ⟨fuel, rfl⟩ : ∃ n, fuel = n + 1 := ⟨fuel - 1, by omega⟩
    rw [membersDepth] at hdepth
    rw [writeMembers_cons, quoted] at hfuel ⊢
    simp only [List.length_append, List.length_cons] at hfuel
    obtain ⟨c, cs, hwrite, hspace, _⟩ := head_write value
    have hskip : ∀ tail, skipWhitespace (write value ++ tail) = write value ++ tail := by
      intro tail
      rw [hwrite, List.cons_append]
      exact skipWhitespace_cons hspace
    simp only [List.cons_append, List.append_assoc, readMembers]
    rw [readString_escape _ _ (by omega), Option.bind_some]
    simp only [skipWhitespace_cons (c := ':') (by decide), hskip]
    by_cases hlast : members = []
    · subst hlast
      rw [if_pos rfl, List.nil_append, readValue_write value fuel budget _ (by omega) (by omega)
        (Ended.cons (by decide)), Option.bind_some]
      simp [skipWhitespace_cons (c := '}') (by decide)]
    · rw [if_neg hlast, List.length_cons] at hfuel
      have hmembers := readMembers_write members fuel budget rest
        hlast (by omega) (by omega)
      have hnext : skipWhitespace (writeMembers members ++ '}' :: rest) =
          writeMembers members ++ '}' :: rest := by
        obtain ⟨⟨next, value⟩, members, rfl⟩ := List.exists_cons_of_ne_nil hlast
        rw [writeMembers_cons, quoted]
        exact skipWhitespace_cons (by decide)
      rw [if_neg hlast, List.cons_append, readValue_write value fuel budget _ (by omega) (by omega)
        (Ended.cons (by decide)), Option.bind_some]
      simp only [skipWhitespace_cons (c := ',') (by decide), hnext, hmembers]
      simp

end

/-- The text of a document within the nesting bound reads back as the document. -/
theorem parse_toText {doc : Json} (h : doc.depth < RECURSION_LIMIT) : parse doc.toText = some doc := by
  obtain ⟨c, cs, hwrite, hspace, _⟩ := head_write doc
  have hskip : skipWhitespace (write doc) = write doc := by
    rw [hwrite]
    exact skipWhitespace_cons hspace
  have hread := readValue_write doc (write doc).length RECURSION_LIMIT [] le_rfl h (by simp [Ended])
  rw [List.append_nil] at hread
  rw [parse, toText, String.toList_ofList, hskip, hread]
  rfl

end Voicetext.Common.Json
