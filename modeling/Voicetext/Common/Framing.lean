import Mathlib.Data.List.Basic
import Mathlib.Data.Nat.Notation
import Mathlib.Tactic.Ring

/-!
# Numbers and parts in byte strings

A number is written in a fixed count of bytes, and a part of any length after its own length. Whatever
follows, such a prefix tells the number or the part, so texts made of them have one reading.
-/

namespace Voicetext.Common

namespace Bytes

/-- The number little-endian bytes spell. -/
def ofLe : List UInt8 → ℕ
  | [] => 0
  | byte :: rest => byte.toNat + 256 * ofLe rest

/-- A number in a count of little-endian bytes. -/
def toLe : ℕ → ℕ → List UInt8
  | 0, _ => []
  | count + 1, n => UInt8.ofNat n :: toLe count (n / 256)

/-- A number in a count of big-endian bytes. -/
def toBe (count n : ℕ) : List UInt8 := (toLe count n).reverse

@[simp] theorem length_toLe (count n : ℕ) : (toLe count n).length = count := by
  induction count generalizing n with
  | zero => rfl
  | succ count ih => simp [toLe, ih]

@[simp] theorem length_toBe (count n : ℕ) : (toBe count n).length = count := by simp [toBe]

/-- A number within the range is read back. -/
theorem ofLe_toLe {count n : ℕ} (h : n < 256 ^ count) : ofLe (toLe count n) = n := by
  induction count generalizing n with
  | zero => simp at h; simp [toLe, ofLe, h]
  | succ count ih =>
    have hquotient : n / 256 < 256 ^ count := by
      rw [Nat.div_lt_iff_lt_mul (by decide), ← pow_succ]
      exact h
    have hbyte : (UInt8.ofNat n).toNat = n % 256 := rfl
    rw [toLe, ofLe, ih hquotient, hbyte]
    omega

/-- Bytes spell a number within the range. -/
theorem ofLe_lt (bytes : List UInt8) : ofLe bytes < 256 ^ bytes.length := by
  induction bytes with
  | nil => decide
  | cons byte rest ih =>
    have hbyte := byte.toNat_lt
    rw [ofLe, List.length_cons, pow_succ]
    omega

/-- Bytes are written back. -/
theorem toLe_ofLe (bytes : List UInt8) : toLe bytes.length (ofLe bytes) = bytes := by
  induction bytes with
  | nil => rfl
  | cons byte rest ih =>
    have hbyte := byte.toNat_lt
    have hhead : UInt8.ofNat (byte.toNat + 256 * ofLe rest) = byte := by
      apply UInt8.toNat_inj.mp
      change (byte.toNat + 256 * ofLe rest) % 256 = byte.toNat
      omega
    have htail : (byte.toNat + 256 * ofLe rest) / 256 = ofLe rest := by omega
    rw [List.length_cons, ofLe, toLe, hhead, htail, ih]

/-- The bytes of a number tell it. -/
theorem toBe_inj {count n m : ℕ} (hn : n < 256 ^ count) (hm : m < 256 ^ count)
    (h : toBe count n = toBe count m) : n = m := by
  rw [← ofLe_toLe hn, ← ofLe_toLe hm, List.reverse_injective h]

/-- A number and what follows it. -/
theorem toBe_append_inj {count n m : ℕ} {rest rest' : List UInt8} (hn : n < 256 ^ count)
    (hm : m < 256 ^ count) (h : toBe count n ++ rest = toBe count m ++ rest') : n = m ∧ rest = rest' := by
  obtain ⟨hnumber, hrest⟩ := List.append_inj h (by simp)
  exact ⟨toBe_inj hn hm hnumber, hrest⟩

end Bytes

/-- A part after its length in eight bytes. -/
def frame (part : List UInt8) : List UInt8 := Bytes.toBe 8 part.length ++ part

/-- Parts one after the other. -/
def frames (parts : List (List UInt8)) : List UInt8 := parts.flatMap frame

/-- A part whose length fits eight bytes. -/
def Framable (part : List UInt8) : Prop := part.length < 2 ^ 64

instance (part : List UInt8) : Decidable (Framable part) := inferInstanceAs (Decidable (part.length < 2 ^ 64))

section Framing

variable {part part' rest rest' : List UInt8}

/-- A framed part and what follows it. -/
theorem frame_append_inj (hpart : Framable part) (hpart' : Framable part')
    (h : frame part ++ rest = frame part' ++ rest') : part = part' ∧ rest = rest' := by
  rw [frame, frame, List.append_assoc, List.append_assoc] at h
  obtain ⟨hlength, htail⟩ := Bytes.toBe_append_inj hpart hpart' h
  exact List.append_inj htail hlength

end Framing

/-! ## Encodings which tell where they end -/

section SelfDelimiting

variable {α : Type*} {encode : α → List UInt8} {valid : α → Prop} {rest rest' : List UInt8}

/-- Whatever follows it, the encoding of a valid value tells the value. -/
def SelfDelimiting (encode : α → List UInt8) (valid : α → Prop) : Prop :=
  ∀ a b rest rest', valid a → valid b → encode a ++ rest = encode b ++ rest' → a = b ∧ rest = rest'

/-- As many encodings one after the other, and what follows them. -/
theorem SelfDelimiting.flatMap_append_inj (h : SelfDelimiting encode valid) {as bs : List α}
    (hcount : as.length = bs.length) (has : ∀ a ∈ as, valid a) (hbs : ∀ b ∈ bs, valid b)
    (heq : as.flatMap encode ++ rest = bs.flatMap encode ++ rest') : as = bs ∧ rest = rest' := by
  induction as generalizing bs with
  | nil =>
    obtain rfl := List.length_eq_zero_iff.mp hcount.symm
    exact ⟨rfl, heq⟩
  | cons a as ih =>
    cases bs with
    | nil => cases hcount
    | cons b bs =>
      simp only [List.flatMap_cons, List.append_assoc] at heq
      rw [List.forall_mem_cons] at has hbs
      obtain ⟨rfl, htail⟩ := h a b _ _ has.1 hbs.1 heq
      obtain ⟨rfl, hrest⟩ := ih (Nat.succ.inj hcount) has.2 hbs.2 htail
      exact ⟨rfl, hrest⟩

/-- Encodings of which none is empty, one after the other, tell how many they are. -/
theorem SelfDelimiting.flatMap_inj (h : SelfDelimiting encode valid) (hne : ∀ a, encode a ≠ []) {as bs : List α}
    (has : ∀ a ∈ as, valid a) (hbs : ∀ b ∈ bs, valid b) (heq : as.flatMap encode = bs.flatMap encode) : as = bs := by
  induction as generalizing bs with
  | nil =>
    cases bs with
    | nil => rfl
    | cons b bs => simp [hne b] at heq
  | cons a as ih =>
    cases bs with
    | nil => simp [hne a] at heq
    | cons b bs =>
      rw [List.flatMap_cons, List.flatMap_cons] at heq
      rw [List.forall_mem_cons] at has hbs
      obtain ⟨rfl, htail⟩ := h a b _ _ has.1 hbs.1 heq
      rw [ih has.2 hbs.2 htail]

theorem selfDelimiting_frame : SelfDelimiting frame Framable :=
  fun _ _ _ _ hpart hpart' heq => frame_append_inj hpart hpart' heq

/-- As many framed parts and what follows them. -/
theorem frames_append_inj {parts parts' : List (List UInt8)} (hcount : parts.length = parts'.length)
    (hparts : ∀ part ∈ parts, Framable part) (hparts' : ∀ part ∈ parts', Framable part)
    (h : frames parts ++ rest = frames parts' ++ rest') : parts = parts' ∧ rest = rest' :=
  selfDelimiting_frame.flatMap_append_inj hcount hparts hparts' h

end SelfDelimiting

end Voicetext.Common
