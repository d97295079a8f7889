import Mathlib.Algebra.GroupWithZero.Nat
import Mathlib.Data.List.DropRight
import Mathlib.Data.String.Basic

/-!
# Text as the Rust standard library measures and classifies it

Lengths are counted in UTF-8 bytes, whitespace is the Unicode `White_Space` property and control
characters are the Unicode category `Cc`. Validators of identities, codes and transcripts are all
written in terms of these few predicates.
-/

namespace Voicetext.Common.Text

/-- `char::is_whitespace`: the Unicode `White_Space` property. -/
def isWhitespace (c : Char) : Bool :=
  let n := c.toNat
  (0x09 ≤ n && n ≤ 0x0D) || n == 0x20 || n == 0x85 || n == 0xA0 || n == 0x1680 ||
    (0x2000 ≤ n && n ≤ 0x200A) || n == 0x2028 || n == 0x2029 || n == 0x202F || n == 0x205F ||
    n == 0x3000

/-- `char::is_control`: the Unicode general category `Cc`. -/
def isControl (c : Char) : Bool :=
  let n := c.toNat
  n ≤ 0x1F || (0x7F ≤ n && n ≤ 0x9F)

/-- `str::len`: the number of UTF-8 bytes. -/
def len (s : String) : ℕ := s.utf8ByteSize

/-- `char::len_utf16`. -/
def utf16Size (c : Char) : ℕ := if c.toNat < 0x10000 then 1 else 2

/-- `str::encode_utf16().count()`. -/
def utf16Len (s : String) : ℕ := (s.toList.map utf16Size).sum

/-- `str::as_bytes`. -/
def asBytes (s : String) : List UInt8 := s.toByteArray.data.toList

/-- A text is as long as its bytes. -/
theorem length_asBytes (s : String) : (asBytes s).length = len s := rfl

/-- Texts with the same bytes are the same. -/
theorem asBytes_inj {s t : String} : asBytes s = asBytes t ↔ s = t := by
  rw [asBytes, asBytes, Array.toList_inj, ← String.toByteArray_inj]
  exact ByteArray.ext_iff.symm

/-- Drop whitespace from both ends of a character list. -/
def trimChars (cs : List Char) : List Char :=
  ((cs.dropWhile isWhitespace).reverse.dropWhile isWhitespace).reverse

/-- `str::trim`. -/
def trim (s : String) : String := String.ofList (trimChars s.toList)

/-- `str::strip_suffix`. -/
def stripSuffix (s suffix : String) : Option String :=
  if suffix.toList.isSuffixOf s.toList then
    some (String.ofList (s.toList.take (s.toList.length - suffix.toList.length)))
  else none

/-- A stripped suffix put back gives the text. -/
theorem stripSuffix_eq_some {s suffix t : String} : stripSuffix s suffix = some t ↔ s = t ++ suffix := by
  unfold stripSuffix
  constructor
  · intro h
    split at h
    · rename_i hsuffix
      obtain ⟨front, hfront⟩ := List.isSuffixOf_iff_suffix.mp hsuffix
      obtain rfl := Option.some.inj h
      apply String.toList_inj.mp
      simp [← hfront]
    · cases h
  · rintro rfl
    rw [if_pos (List.isSuffixOf_iff_suffix.mpr (by simp))]
    simp

/-- `str::split_whitespace`: the non-empty runs between whitespace. -/
def splitWhitespace (s : String) : List (List Char) :=
  (s.toList.splitOnP isWhitespace).filter (· ≠ [])

/-- `str::chars().any(char::is_control)`. -/
def hasControl (s : String) : Bool := s.toList.any isControl

/-- A character of a whitespace-separated word is not whitespace and occurs in the text. -/
theorem mem_of_mem_splitWhitespace {s : String} {word : List Char} {c : Char}
    (hword : word ∈ splitWhitespace s) (hc : c ∈ word) : c ∈ s.toList ∧ isWhitespace c = false := by
  have hsplit : ∀ cs : List Char, ∀ word ∈ cs.splitOnP isWhitespace, ∀ c ∈ word,
      c ∈ cs ∧ isWhitespace c = false := by
    intro cs
    induction cs with
    | nil => simp
    | cons d rest ih =>
      intro word hword c hc
      rw [List.splitOnP_cons_eq_if_modifyHead] at hword
      split at hword
      · rcases List.mem_cons.mp hword with rfl | hword
        · simp at hc
        · exact (ih word hword c hc).imp_left (List.mem_cons_of_mem d)
      · rename_i hd
        cases hparts : rest.splitOnP isWhitespace with
        | nil => exact absurd hparts (List.splitOnP_ne_nil isWhitespace rest)
        | cons first others =>
          rw [hparts, List.modifyHead_cons, List.mem_cons] at hword
          rw [hparts] at ih
          rcases hword with rfl | hword
          · rcases List.mem_cons.mp hc with rfl | hc
            · exact ⟨List.mem_cons_self, by simpa using hd⟩
            · exact (ih first List.mem_cons_self c hc).imp_left (List.mem_cons_of_mem d)
          · exact (ih word (List.mem_cons_of_mem first hword) c hc).imp_left (List.mem_cons_of_mem d)
  exact hsplit s.toList word (List.mem_filter.mp hword).1 c hc

/-- Trimming keeps every character that is not whitespace. -/
theorem mem_trimChars {cs : List Char} {c : Char} (hmem : c ∈ cs) (hc : isWhitespace c = false) :
    c ∈ trimChars cs := by
  have hdrop : ∀ ds : List Char, c ∈ ds → c ∈ ds.dropWhile isWhitespace := by
    intro ds
    induction ds with
    | nil => exact id
    | cons d rest ih =>
      intro hmem
      rw [List.dropWhile_cons]
      split
      · rename_i hd
        rcases List.mem_cons.mp hmem with rfl | hmem
        · simp [hc] at hd
        · exact ih hmem
      · exact hmem
  rw [trimChars, List.mem_reverse]
  exact hdrop _ (List.mem_reverse.mpr (hdrop _ hmem))

/-- Trimmed characters are trimmed. -/
theorem trimChars_trimChars (cs : List Char) : trimChars (trimChars cs) = trimChars cs := by
  have htrim (ds : List Char) : trimChars ds = (ds.dropWhile isWhitespace).rdropWhile isWhitespace := rfl
  have hhead (ds : List Char) (h : ds.dropWhile isWhitespace = ds) :
      (ds.rdropWhile isWhitespace).dropWhile isWhitespace = ds.rdropWhile isWhitespace := by
    obtain ⟨dropped, hdropped⟩ := ds.rdropWhile_prefix isWhitespace
    cases hkept : ds.rdropWhile isWhitespace with
    | nil => rfl
    | cons c rest =>
      rw [hkept] at hdropped
      rw [← hdropped, List.cons_append, List.dropWhile_cons] at h
      split at h
      · have hlength := congrArg List.length h
        have hle := (List.dropWhile_sublist isWhitespace (l := rest ++ dropped)).length_le
        simp only [List.length_cons] at hlength
        omega
      · rename_i hc
        rw [List.dropWhile_cons_of_neg hc]
  rw [htrim cs, htrim, hhead _ (List.dropWhile_idempotent ..), List.rdropWhile_idempotent]

/-- A trimmed text is trimmed. -/
theorem trim_trim (s : String) : trim (trim s) = trim s := by
  rw [trim, trim, String.toList_ofList, trimChars_trimChars]
/-- A text with a character that is not whitespace does not trim to nothing. -/
theorem trim_ne_empty {s : String} {c : Char} (hmem : c ∈ s.toList) (hc : isWhitespace c = false) :
    trim s ≠ "" := by
  intro h
  have hkept := mem_trimChars hmem hc
  have hnil : trimChars s.toList = [] := by
    have := congrArg String.toList h
    simpa [trim] using this
  rw [hnil] at hkept
  cases hkept

@[simp] theorem len_append (s t : String) : len (s ++ t) = len s + len t := by
  simp [len]

/-- The encoded size of a character sequence. -/
def bytes (cs : List Char) : ℕ := (cs.map Char.utf8Size).sum

@[simp] theorem bytes_nil : bytes [] = 0 := rfl

@[simp] theorem bytes_cons (c : Char) (cs : List Char) : bytes (c :: cs) = c.utf8Size + bytes cs := rfl

@[simp] theorem bytes_append (cs ds : List Char) : bytes (cs ++ ds) = bytes cs + bytes ds := by
  simp [bytes]

/-- The byte length is the sum of the encoded sizes of the characters. -/
theorem len_ofList (cs : List Char) : len (String.ofList cs) = bytes cs := by
  induction cs with
  | nil => rfl
  | cons c rest ih =>
    have hsplit : String.ofList (c :: rest) = String.ofList [c] ++ String.ofList rest := by
      rw [← String.ofList_append]
      rfl
    rw [hsplit, len_append, ih, bytes_cons]
    congr 1
    exact String.utf8ByteSize_singleton

/-- A string measures the same as its characters. -/
theorem len_eq_bytes (s : String) : len s = bytes s.toList := by
  rw [← len_ofList, String.ofList_toList]

/-- An ASCII character is one byte. -/
theorem utf8Size_of_ascii {c : Char} (h : c.toNat < 128) : c.utf8Size = 1 := by
  unfold Char.utf8Size
  rw [if_pos]
  exact UInt32.le_iff_toNat_le.mpr (by change c.toNat ≤ 127; omega)

/-- ASCII characters are one byte each. -/
theorem bytes_of_ascii {cs : List Char} (h : ∀ c ∈ cs, c.toNat < 128) : bytes cs = cs.length := by
  rw [bytes, List.map_congr_left fun c hc => utf8Size_of_ascii (h c hc)]
  simp

/-- In ASCII text every character is one byte. -/
theorem len_of_ascii {s : String} (h : ∀ c ∈ s.toList, c.toNat < 128) : len s = s.toList.length := by
  rw [len_eq_bytes, bytes_of_ascii h]

end Voicetext.Common.Text
