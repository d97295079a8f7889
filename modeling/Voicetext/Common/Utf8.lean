import Voicetext.Common.Text

/-!
# UTF-8

The bytes of a text are those of its characters. An ASCII character is its own byte, and the bytes of any other
character are none of an ASCII one, so reading bytes for ASCII marks does not part characters.
-/

namespace Voicetext.Common.Text

/-- The bytes of a character sequence. -/
def utf8 (cs : List Char) : List UInt8 := cs.flatMap String.utf8EncodeChar

@[simp] theorem utf8_nil : utf8 [] = [] := rfl

@[simp] theorem utf8_cons (c : Char) (cs : List Char) : utf8 (c :: cs) = String.utf8EncodeChar c ++ utf8 cs := rfl

@[simp] theorem utf8_append (cs ds : List Char) : utf8 (cs ++ ds) = utf8 cs ++ utf8 ds := List.flatMap_append

theorem asBytes_eq_utf8 (s : String) : asBytes s = utf8 s.toList := by
  have hencode : asBytes s = (s.toList.utf8Encode).data.toList := by rw [String.utf8Encode_toList]; rfl
  rw [hencode, List.utf8Encode]
  simp [utf8]

theorem utf8_inj {cs ds : List Char} : utf8 cs = utf8 ds ↔ cs = ds := by
  have h := asBytes_inj (s := String.ofList cs) (t := String.ofList ds)
  rw [asBytes_eq_utf8, asBytes_eq_utf8, String.toList_ofList, String.toList_ofList] at h
  exact h.trans String.ofList_inj

/-- `String::from_utf8`. -/
def fromUtf8 (bytes : List UInt8) : Option String := String.fromUTF8? bytes.toByteArray

theorem fromUtf8_eq_some {bytes : List UInt8} {s : String} : fromUtf8 bytes = some s ↔ asBytes s = bytes := by
  have hbytes : bytes.toByteArray.data.toList = bytes := by simp
  unfold fromUtf8 String.fromUTF8?
  constructor
  · intro h
    split at h
    · obtain rfl := Option.some.inj h
      exact hbytes
    · cases h
  · intro h
    have harray : s.toByteArray = bytes.toByteArray := by
      rw [← h, asBytes]
      exact ByteArray.ext (Array.toList_inj.mp (by simp))
    rw [dif_pos (harray ▸ s.isValidUTF8)]
    exact congrArg some (String.toByteArray_inj.mp harray.symm)

/-- An ASCII character is its own byte. -/
theorem utf8EncodeChar_of_ascii {c : Char} (h : c.toNat < 128) : String.utf8EncodeChar c = [UInt8.ofNat c.toNat] := by
  have hle : c.val.toNat ≤ 0x7F := by
    change c.toNat ≤ 127
    omega
  rw [String.utf8EncodeChar]
  exact if_pos hle

/-- The bytes of any other character are not ASCII. -/
theorem le_of_mem_utf8EncodeChar {c : Char} {b : UInt8} (h : 128 ≤ c.toNat) (hb : b ∈ String.utf8EncodeChar c) :
    128 ≤ b := by
  have hbyte (m n : ℕ) (hm : 128 ≤ m) (hn : n + m < 256) : 128 ≤ UInt8.ofNat (n + m) := by
    rw [UInt8.le_iff_toNat_le, UInt8.toNat_ofNat_of_lt' hn]
    change 128 ≤ n + m
    omega
  have hwide : ¬ c.val.toNat ≤ 0x7F := by
    change ¬ c.toNat ≤ 127
    omega
  unfold String.utf8EncodeChar at hb
  simp only [if_neg hwide] at hb
  split at hb
  · simp only [List.mem_cons, List.not_mem_nil, or_false] at hb
    rcases hb with rfl | rfl <;> exact hbyte _ _ (by omega) (by omega)
  split at hb
  · simp only [List.mem_cons, List.not_mem_nil, or_false] at hb
    rcases hb with rfl | rfl | rfl <;> exact hbyte _ _ (by omega) (by omega)
  · simp only [List.mem_cons, List.not_mem_nil, or_false] at hb
    rcases hb with rfl | rfl | rfl | rfl <;> exact hbyte _ _ (by omega) (by omega)

/-- An ASCII byte among the bytes of characters is a character, with characters on its two sides. -/
theorem utf8_split {cs : List Char} {front back : List UInt8} {b : UInt8} (hb : b < 128)
    (h : utf8 cs = front ++ b :: back) :
    ∃ cs' c ds, cs = cs' ++ c :: ds ∧ utf8 cs' = front ∧ String.utf8EncodeChar c = [b] ∧ utf8 ds = back := by
  induction cs generalizing front with
  | nil => simp at h
  | cons c cs ih =>
    rw [utf8_cons] at h
    have hbehind {front' : List UInt8} (hfront : front = String.utf8EncodeChar c ++ front')
        (hrest : utf8 cs = front' ++ b :: back) :
        ∃ cs' c' ds, c :: cs = cs' ++ c' :: ds ∧ utf8 cs' = front ∧ String.utf8EncodeChar c' = [b] ∧ utf8 ds = back := by
      obtain ⟨cs', c', ds, rfl, rfl, hc', hds⟩ := ih hrest
      exact ⟨c :: cs', c', ds, rfl, by rw [utf8_cons, hfront], hc', hds⟩
    obtain ⟨front', hfront, hrest⟩ | ⟨bytes, hbytes, hrest⟩ := List.append_eq_append_iff.mp h
    · exact hbehind hfront hrest
    cases bytes with
    | nil =>
      rw [List.append_nil] at hbytes
      rw [List.nil_append] at hrest
      exact hbehind (by rw [hbytes, List.append_nil]) hrest.symm
    | cons first bytes =>
      obtain ⟨rfl, rfl⟩ := List.cons.inj hrest
      have hmem : b ∈ String.utf8EncodeChar c := by
        rw [hbytes]
        simp
      by_cases hc : c.toNat < 128
      · rw [utf8EncodeChar_of_ascii hc] at hbytes hmem
        obtain ⟨hfront, hnil⟩ : front = [] ∧ bytes = [] := by
          cases front with
          | nil => exact ⟨rfl, (List.cons.inj hbytes).2.symm⟩
          | cons => simp at hbytes
        refine ⟨[], c, cs, rfl, hfront.symm, ?_, by rw [hnil]; rfl⟩
        rw [utf8EncodeChar_of_ascii hc, List.mem_singleton.mp hmem]
      · exact absurd (le_of_mem_utf8EncodeChar (Nat.le_of_not_lt hc) hmem) (UInt8.not_le.mpr hb)

end Voicetext.Common.Text
