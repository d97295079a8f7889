import Mathlib.Algebra.Order.BigOperators.Group.List
import Voicetext.Common.Text

/-!
# UTF-16 code units

A scalar below `0x10000` is one unit, any other scalar a pair of surrogates. The units of a text determine
it, so comparing texts by their units is a total order on texts, which is not the order of their scalars.
-/

namespace Voicetext.Common.Text

/-- `char::encode_utf16`. -/
def unitsOfChar (c : Char) : List ℕ :=
  if c.toNat < 0x10000 then [c.toNat]
  else [0xD800 + (c.toNat - 0x10000) / 0x400, 0xDC00 + (c.toNat - 0x10000) % 0x400]

/-- The code units of a character sequence. -/
def units (cs : List Char) : List ℕ := cs.flatMap unitsOfChar

/-- `str::encode_utf16`. -/
def encodeUtf16 (s : String) : List ℕ := units s.toList

@[simp] theorem units_nil : units [] = [] := rfl

@[simp] theorem units_cons (c : Char) (cs : List Char) : units (c :: cs) = unitsOfChar c ++ units cs := rfl

/-- The units of a text are as many as its characters take. -/
theorem length_encodeUtf16 (s : String) : (encodeUtf16 s).length = utf16Len s := by
  have hchar (c : Char) : (unitsOfChar c).length = utf16Size c := by
    unfold unitsOfChar utf16Size
    split <;> rfl
  rw [encodeUtf16, units, List.length_flatMap, utf16Len]
  exact congrArg List.sum (List.map_congr_left fun c _ => hchar c)

/-- A character outside ASCII takes two bytes at least. -/
theorem two_le_utf8Size {c : Char} (h : 128 ≤ c.toNat) : 2 ≤ c.utf8Size := by
  have hwide : ¬ c.val ≤ 127 := by
    intro hle
    have hnat : c.toNat ≤ 127 := UInt32.le_iff_toNat_le.mp hle
    omega
  rw [Char.utf8Size]
  split
  · rename_i hle
    exact absurd hle hwide
  · split
    · exact le_rfl
    · split <;> decide

/-- A text has at most as many units as bytes. -/
theorem utf16Len_le_len (s : String) : utf16Len s ≤ len s := by
  have hchar (c : Char) : utf16Size c ≤ c.utf8Size := by
    unfold utf16Size
    split
    · exact c.utf8Size_pos
    · exact two_le_utf8Size (by omega)
  rw [len_eq_bytes, utf16Len, bytes]
  exact List.sum_le_sum fun c _ => hchar c

/-- No scalar is a surrogate. -/
theorem scalar_range (c : Char) : c.toNat < 0xD800 ∨ 0xE000 ≤ c.toNat ∧ c.toNat < 0x110000 := by
  rcases c.valid with h | h
  · exact .inl h
  · exact .inr ⟨h.1, h.2⟩

/-- The units of a character and of what follows it tell both. -/
theorem unitsOfChar_append_inj {c d : Char} {xs ys : List ℕ}
    (h : unitsOfChar c ++ xs = unitsOfChar d ++ ys) : c = d ∧ xs = ys := by
  have hc := scalar_range c
  have hd := scalar_range d
  have hchar (hnat : c.toNat = d.toNat) : c = d := Char.toNat_inj.mp hnat
  unfold unitsOfChar at h
  split at h <;> split at h
  · simp only [List.cons_append, List.nil_append, List.cons.injEq] at h
    exact ⟨hchar h.1, h.2⟩
  · -- a unit of its own is not the first of a pair
    simp only [List.cons_append, List.nil_append, List.cons.injEq] at h
    omega
  · simp only [List.cons_append, List.nil_append, List.cons.injEq] at h
    omega
  · simp only [List.cons_append, List.nil_append, List.cons.injEq] at h
    obtain ⟨hhigh, hlow, hrest⟩ := h
    exact ⟨hchar (by omega), hrest⟩

/-- A character has at least one unit. -/
theorem unitsOfChar_ne_nil (c : Char) : unitsOfChar c ≠ [] := by
  unfold unitsOfChar
  split <;> simp

theorem units_injective {cs ds : List Char} (h : units cs = units ds) : cs = ds := by
  induction cs generalizing ds with
  | nil =>
    cases ds with
    | nil => rfl
    | cons d ds => simp [unitsOfChar_ne_nil] at h
  | cons c cs ih =>
    cases ds with
    | nil => simp [unitsOfChar_ne_nil] at h
    | cons d ds =>
      rw [units_cons, units_cons] at h
      obtain ⟨rfl, hrest⟩ := unitsOfChar_append_inj h
      rw [ih hrest]

/-- Texts with the same units are the same. -/
theorem encodeUtf16_inj {s t : String} : encodeUtf16 s = encodeUtf16 t ↔ s = t :=
  ⟨fun h => String.toList_inj.mp (units_injective h), congrArg encodeUtf16⟩

/-- `str::encode_utf16().cmp(..)`: compare texts unit by unit. -/
def compareUtf16 (left right : String) : Ordering := compare (encodeUtf16 left) (encodeUtf16 right)

/-- Comparing by units is a total order. -/
instance : Std.TransCmp compareUtf16 where
  eq_swap {left right} := @Std.OrientedCmp.eq_swap (List ℕ) compare _ (encodeUtf16 left) (encodeUtf16 right)
  isLE_trans {left middle right} := @Std.TransCmp.isLE_trans (List ℕ) compare _ (encodeUtf16 left)
    (encodeUtf16 middle) (encodeUtf16 right)

/-- Texts which compare as equal are the same. -/
instance : Std.LawfulEqCmp compareUtf16 where
  compare_self {text} := @Std.ReflCmp.compare_self (List ℕ) compare _ (encodeUtf16 text)
  eq_of_compare h := encodeUtf16_inj.mp (Std.LawfulEqCmp.eq_of_compare h)

end Voicetext.Common.Text
