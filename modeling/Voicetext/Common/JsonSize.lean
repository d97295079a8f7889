import Voicetext.Common.JsonValue

/-!
# The size of written documents

The text of an object or array is bounded by the texts of its parts, and those of leaves by what they
carry, so the text of a record is linear in the text it carries and in the number of its parts.
-/

namespace Voicetext.Common.Json

variable {α : Type}

/-- A sum is bounded when each of its terms is. -/
theorem sum_map_le {f g : α → ℕ} {k c : ℕ} {values : List α} (h : ∀ a ∈ values, f a ≤ k * g a + c) :
    (values.map f).sum ≤ k * (values.map g).sum + c * values.length := by
  induction values with
  | nil => simp
  | cons a rest ih =>
    have ha := h a List.mem_cons_self
    have hrest := ih fun b hb => h b (List.mem_cons_of_mem a hb)
    simp only [List.map_cons, List.sum_cons, List.length_cons, Nat.mul_add, Nat.mul_one]
    omega

theorem bytes_write_object (members : List (String × Json)) :
    Text.bytes (write (.object members)) = Text.bytes (writeMembers members) + 2 := by
  have hopen : ('{' : Char).utf8Size = 1 := by decide
  have hclose : ('}' : Char).utf8Size = 1 := by decide
  simp only [write, Text.bytes_cons, Text.bytes_append, hopen, hclose, Text.bytes_nil]
  omega

/-- The members of an object take the bytes of their keys and values, a colon and at most one comma each. -/
theorem bytes_writeMembers_le (members : List (String × Json)) : Text.bytes (writeMembers members) ≤
    (members.map fun member => Text.bytes (quoted member.1) + Text.bytes (write member.2) + 2).sum := by
  have hcolon : (':' : Char).utf8Size = 1 := by decide
  have hcomma : (',' : Char).utf8Size = 1 := by decide
  induction members with
  | nil => simp [writeMembers]
  | cons member rest ih =>
    obtain ⟨key, value⟩ := member
    cases rest with
    | nil =>
      simp only [writeMembers, Text.bytes_append, Text.bytes_cons, hcolon, List.map_cons, List.map_nil,
        List.sum_cons, List.sum_nil]
      omega
    | cons next rest =>
      rw [writeMembers]
      · simp only [Text.bytes_append, Text.bytes_cons, hcolon, hcomma, List.map_cons, List.sum_cons] at ih ⊢
        omega
      · simp

/-- The text of an object is bounded by those of its members. -/
theorem bytes_write_object_le (members : List (String × Json)) : Text.bytes (write (.object members)) ≤
    (members.map fun member => Text.bytes (quoted member.1) + Text.bytes (write member.2) + 2).sum + 2 := by
  have hmembers := bytes_writeMembers_le members
  rw [bytes_write_object]
  omega

/-- The text of an array is bounded by those of its items. -/
theorem bytes_write_array_le {encode : α → Json} {size : α → ℕ} {k c : ℕ} {values : List α}
    (h : ∀ a ∈ values, Text.bytes (write (encode a)) ≤ k * size a + c) :
    Text.bytes (write (.array (values.map encode))) ≤
      k * (values.map size).sum + (c + 1) * values.length + 2 := by
  have hitems := bytes_writeItems_le (values.map encode)
  rw [List.map_map] at hitems
  have hitem : ∀ a ∈ values, ((fun item => Text.bytes (write item) + 1) ∘ encode) a ≤ k * size a + (c + 1) := by
    intro a ha
    have hbound := h a ha
    simp only [Function.comp_apply]
    omega
  have hsum := sum_map_le hitem
  rw [bytes_write_array]
  omega

theorem bytes_write_string_le (value : String) :
    Text.bytes (write (.string value)) ≤ 6 * Text.len value + 2 := bytes_quoted_le value

theorem bytes_write_ofU64_le (n : UInt64) : Text.bytes (write (.ofU64 n)) ≤ 20 :=
  NumberLiteral.bytes_ofU64_le n

theorem bytes_write_null : Text.bytes (write .null) = 4 := by decide

theorem bytes_write_ofF32_le (floats : FloatText) (x : Float32) : Text.bytes (write (.ofF32 floats x)) ≤ 24 := by
  unfold ofF32
  split
  · rw [write, NumberLiteral.bytes_chars]
    exact floats.length_printF32_le x
  · rw [bytes_write_null]
    decide

/-- An optional value takes at most its own bytes, or those of null. -/
theorem bytes_write_ofOption_le {encode : α → Json} {value : Option α} {bound : ℕ} (hnull : 4 ≤ bound)
    (h : ∀ a ∈ value, Text.bytes (write (encode a)) ≤ bound) :
    Text.bytes (write (.ofOption encode value)) ≤ bound := by
  cases value with
  | none => exact bytes_write_null.trans_le hnull
  | some a => exact h a rfl

end Voicetext.Common.Json
