import Mathlib.Data.List.Forall2
import Voicetext.Common.Utf8
import Voicetext.Xtask.Tokens

/-!
# Lexing what is partly blanked

A piece of a source ends where it does whatever stands behind it, apart from two bytes of lookahead. So a source
in which later bytes are blanked has the same first piece, as long as an identifier which follows keeps its
first byte. What follows may also end: the piece in front of the end of a source is the same by itself.
-/

namespace Voicetext.Xtask

open Byte Voicetext.Common.Text

/-! ## Blanked bytes -/

/-- A byte and what is left of it: a newline is never blanked. -/
def Blanked (b b' : UInt8) : Prop := b' = b ∨ b' = space ∧ b ≠ newline

/-- What is left of the bytes behind a piece. -/
structure Follows (after after' : List UInt8) : Prop where
  blanked : List.Forall₂ Blanked after after'
  head : ∀ b ∈ after.head?, isIdentStart b = true → after'.head? = some b

/-- Blank a byte. -/
def blank (b : UInt8) : UInt8 := if b = newline then newline else space

theorem blanked_blank (b : UInt8) : Blanked b (blank b) := by
  unfold blank
  split
  next h => exact Or.inl h.symm
  next h => exact Or.inr ⟨rfl, h⟩

theorem isWhitespace_blank (b : UInt8) : isWhitespace (blank b) = true := by
  unfold blank
  split <;> rfl

theorem getElem?_newline_of_blanked {bytes bytes' : List UInt8} (h : List.Forall₂ Blanked bytes bytes') (i : ℕ) :
    bytes'[i]? = some newline ↔ bytes[i]? = some newline := by
  induction h generalizing i with
  | nil => rfl
  | cons hfirst _ ih =>
    cases i with
    | zero =>
      obtain rfl | ⟨rfl, hne⟩ := hfirst
      · rfl
      · simpa [space, newline] using hne
    | succ i => simpa using ih i

theorem utf8_spaces (n : ℕ) : utf8 (List.replicate n ' ') = List.replicate n space := by
  induction n with
  | zero => rfl
  | succ n ih =>
    rw [List.replicate_succ, utf8_cons, ih]
    rfl

theorem ne_newline_of_mem_utf8EncodeChar {c : Char} {b : UInt8} (hc : c ≠ '\n') (hb : b ∈ String.utf8EncodeChar c) :
    b ≠ newline := by
  rintro rfl
  by_cases hascii : c.toNat < 128
  · rw [utf8EncodeChar_of_ascii hascii, List.mem_singleton] at hb
    have hnat : (UInt8.ofNat c.toNat).toNat = c.toNat := UInt8.toNat_ofNat_of_lt' (by rw [UInt8.size]; omega)
    rw [← hb] at hnat
    exact hc (Char.toNat_inj.mp hnat.symm)
  · exact absurd (le_of_mem_utf8EncodeChar (Nat.le_of_not_lt hascii) hb) (by decide)

/-- Blanking the bytes of a character gives that character or spaces. -/
theorem exists_blank_char (c : Char) : ∃ front, utf8 front = (String.utf8EncodeChar c).map blank ∧
    (front = [c] ∨ front = List.replicate c.utf8Size ' ') := by
  by_cases hc : c = '\n'
  · exact ⟨[c], by rw [hc]; rfl, Or.inl rfl⟩
  · refine ⟨List.replicate c.utf8Size ' ', ?_, Or.inr rfl⟩
    rw [utf8_spaces, ← String.length_utf8EncodeChar]
    refine (List.eq_replicate_iff.mpr ⟨by simp, fun b hb => ?_⟩).symm
    obtain ⟨b', hb', rfl⟩ := List.mem_map.mp hb
    exact if_neg (ne_newline_of_mem_utf8EncodeChar hc hb')

/-- Blanking characters gives characters. -/
theorem exists_blank_chars (cs : List Char) : ∃ ds, utf8 ds = (utf8 cs).map blank := by
  induction cs with
  | nil => exact ⟨[], rfl⟩
  | cons c cs ih =>
    obtain ⟨ds, hds⟩ := ih
    obtain ⟨front, hfront, -⟩ := exists_blank_char c
    exact ⟨front ++ ds, by rw [utf8_append, hfront, hds, utf8_cons, List.map_append]⟩

section Follows

variable {after after' : List UInt8} {b : UInt8}

theorem Follows.nil : Follows [] [] := ⟨.nil, by simp⟩

theorem Follows.nil_iff (h : Follows after after') : after = [] ↔ after' = [] := by
  have hlength := h.blanked.length_eq
  rw [← List.length_eq_zero_iff, ← List.length_eq_zero_iff, hlength]

/-- What a blanked byte turns into is told from every other byte by it being a space. -/
theorem Follows.head_eq (h : Follows after after') (hhead : after'.head? = some b) (hspace : b ≠ space) :
    after.head? = some b := by
  obtain ⟨hblanked, -⟩ := h
  cases hblanked with
  | nil => simp at hhead
  | cons hfirst _ =>
    obtain rfl := Option.some.inj hhead
    obtain heq | ⟨heq, -⟩ := hfirst
    · exact congrArg some heq.symm
    · exact absurd heq hspace

theorem Follows.head_newline (h : Follows after after') (hhead : after.head? = some newline) :
    after'.head? = some newline := by
  obtain ⟨hblanked, -⟩ := h
  cases hblanked with
  | nil => simp at hhead
  | cons hfirst _ =>
    obtain rfl := Option.some.inj hhead
    obtain rfl | ⟨-, hne⟩ := hfirst
    · rfl
    · exact absurd rfl hne

/-- What is behind a line stays behind it. -/
theorem Follows.end_of_line (h : Follows after after') (hend : ∀ c ∈ after.head?, c = newline) :
    ∀ c ∈ after'.head?, c = newline := by
  intro c hc
  cases hafter : after.head? with
  | none =>
    rw [h.nil_iff.mp (List.head?_eq_none_iff.mp hafter)] at hc
    simp at hc
  | some c' =>
    rw [h.head_newline (hend c' hafter ▸ hafter)] at hc
    exact (Option.some.inj hc).symm

theorem Follows.head_ne (h : Follows after after') (hspace : b ≠ space) (hne : after.head? ≠ some b) :
    after'.head? ≠ some b := fun heq => hne (h.head_eq heq hspace)

theorem rawStringHashes_of_blanked {hashes : ℕ} (h : List.Forall₂ Blanked after after')
    (hraw : rawStringHashes after' = some hashes) : rawStringHashes after = some hashes := by
  induction h generalizing hashes with
  | nil => exact hraw
  | @cons b b' after after' hfirst hrest ih =>
    have hkept : b' = pound ∨ b' = quote → b = b' := by
      intro hmark
      obtain heq | ⟨rfl, -⟩ := hfirst
      · exact heq.symm
      · simp [space, pound, quote] at hmark
    rw [rawStringHashes] at hraw ⊢
    by_cases hpound : b' = pound
    · rw [if_pos hpound] at hraw
      obtain ⟨n, hn, rfl⟩ := Option.map_eq_some_iff.mp hraw
      rw [if_pos ((hkept (.inl hpound)).trans hpound), ih hn]
      rfl
    · rw [if_neg hpound] at hraw
      have hquote : b' = quote := by
        by_contra hne
        simp [hne] at hraw
      have hb : b = quote := (hkept (.inr hquote)).trans hquote
      rw [if_pos hquote] at hraw
      rw [if_neg (by rw [hb]; decide), if_pos hb]
      exact hraw

theorem rawStringHashes_append_of_follows (taken : List UInt8) (h : Follows after after')
    (hnone : rawStringHashes (taken ++ after) = none) : rawStringHashes (taken ++ after') = none := by
  cases hraw : rawStringHashes (taken ++ after') with
  | none => rfl
  | some hashes =>
    have htaken : List.Forall₂ Blanked taken taken := List.forall₂_same.mpr fun b _ => Or.inl rfl
    have hblanked : List.Forall₂ Blanked (taken ++ after) (taken ++ after') := List.rel_append htaken h.blanked
    rw [rawStringHashes_of_blanked hblanked hraw] at hnone
    cases hnone

end Follows

/-! ## Skipping ends where it does -/

/-- What is skipped, unless it is all, is skipped in front of anything else. -/
def EndsWhereItDoes (skip : List UInt8 → List UInt8) (bytes : List UInt8) : Prop :=
  skip bytes ≠ [] → ∃ taken, bytes = taken ++ skip bytes ∧ ∀ after, skip (taken ++ after) = after

section Skipping

variable {skip : List UInt8 → List UInt8} {taken after after' bytes : List UInt8} {depth hashes : ℕ} {mark : UInt8}

theorem EndsWhereItDoes.congr (h : EndsWhereItDoes skip (taken ++ after)) (heq : skip (taken ++ after) = after)
    (hfollows : after = [] ↔ after' = []) : skip (taken ++ after') = after' := by
  by_cases hnil : after = []
  · rw [hnil] at heq
    rwa [hfollows.mp hnil]
  · obtain ⟨taken', htaken, hskip⟩ := h (by rwa [heq])
    rw [heq] at htaken
    rw [List.append_cancel_right htaken]
    exact hskip after'

/-- One more byte is skipped in front, where it does not change what is read behind it. -/
theorem EndsWhereItDoes.cons {b c : UInt8} {rest : List UInt8} (h : EndsWhereItDoes skip (c :: rest))
    (hsingle : skip [c] = []) (hstep : ∀ rest, skip (b :: c :: rest) = skip (c :: rest)) :
    EndsWhereItDoes skip (b :: c :: rest) := by
  intro hne
  rw [hstep] at hne ⊢
  obtain ⟨taken, htaken, hskip⟩ := h hne
  cases taken with
  | nil => exact absurd (hsingle.symm.trans (hskip [c])) (by simp)
  | cons c' taken =>
    obtain ⟨rfl, hrest⟩ := List.cons.inj htaken
    exact ⟨b :: c :: taken, congrArg (b :: c :: ·) hrest, fun after => (hstep _).trans (hskip after)⟩

theorem skipBlock_ends (depth : ℕ) (bytes : List UInt8) : EndsWhereItDoes (skipBlock depth) bytes := by
  fun_induction skipBlock depth bytes with
  | case1 bytes => exact fun _ => ⟨[], by simp [skipBlock], fun after => by simp [skipBlock]⟩
  | case2 depth | case3 depth => exact fun hne => absurd rfl hne
  | case4 depth b c rest hopen ih =>
    intro hne
    rw [skipBlock, if_pos hopen] at hne ⊢
    obtain ⟨taken, htaken, hskip⟩ := ih hne
    refine ⟨b :: c :: taken, congrArg (b :: c :: ·) htaken, fun after => ?_⟩
    rw [List.cons_append, List.cons_append, skipBlock, if_pos hopen, hskip]
  | case5 depth b c rest hopen hclose ih =>
    intro hne
    rw [skipBlock, if_neg hopen, if_pos hclose] at hne ⊢
    obtain ⟨taken, htaken, hskip⟩ := ih hne
    refine ⟨b :: c :: taken, congrArg (b :: c :: ·) htaken, fun after => ?_⟩
    rw [List.cons_append, List.cons_append, skipBlock, if_neg hopen, if_pos hclose, hskip]
  | case6 depth b c rest hopen hclose ih =>
    exact ih.cons rfl fun rest => by rw [skipBlock, if_neg hopen, if_neg hclose]

theorem skipQuoted_ends (mark : UInt8) (bytes : List UInt8) : EndsWhereItDoes (skipQuoted mark) bytes := by
  fun_induction skipQuoted mark bytes with
  | case1 | case2 => exact fun hne => absurd rfl hne
  | case3 c rest ih =>
    intro hne
    rw [skipQuoted, if_pos rfl] at hne ⊢
    obtain ⟨taken, htaken, hskip⟩ := ih hne
    refine ⟨backslash :: c :: taken, congrArg (backslash :: c :: ·) htaken, fun after => ?_⟩
    rw [List.cons_append, List.cons_append, skipQuoted, if_pos rfl, hskip]
  | case4 c rest hescape =>
    refine fun _ => ⟨[mark], by rw [skipQuoted, if_neg hescape, if_pos rfl]; rfl, fun after => ?_⟩
    cases after with
    | nil => rfl
    | cons => rw [List.singleton_append, skipQuoted, if_neg hescape, if_pos rfl]
  | case5 b c rest hescape hmark ih =>
    exact ih.cons rfl fun rest => by rw [skipQuoted, if_neg hescape, if_neg hmark]

/-- A raw string is skipped together with the hashes behind its closing quote. -/
theorem skipRawBody_takes (hashes : ℕ) (bytes : List UInt8) (hne : skipRawBody hashes bytes ≠ []) :
    ∃ taken, bytes = taken ++ skipRawBody hashes bytes ∧ hashes < taken.length ∧
      ∀ after, skipRawBody hashes (taken ++ after) = after := by
  fun_induction skipRawBody hashes bytes with
  | case1 => exact absurd rfl hne
  | case2 b rest hclose =>
    obtain ⟨rfl, hhashes⟩ := hclose
    refine ⟨quote :: List.replicate hashes pound, ?_, by simp, fun after => ?_⟩
    · rw [List.cons_append, ← hhashes, List.take_append_drop]
    · rw [List.cons_append, skipRawBody, if_pos ⟨rfl, by simp⟩]
      simp
  | case3 b rest hclose ih =>
    obtain ⟨taken, htaken, hlength, hskip⟩ := ih hne
    refine ⟨b :: taken, congrArg (b :: ·) htaken, by simp; omega, fun after => ?_⟩
    have hopen : ¬ (b = quote ∧ (taken ++ after).take hashes = List.replicate hashes pound) := by
      rw [htaken, List.take_append_of_le_length hlength.le] at hclose
      rwa [List.take_append_of_le_length hlength.le]
    rw [List.cons_append, skipRawBody, if_neg hopen, hskip]

theorem skipLine_suffix (bytes : List UInt8) : skipLine bytes <:+ bytes := List.dropWhile_suffix _

theorem skipBlock_suffix (depth : ℕ) (bytes : List UInt8) : skipBlock depth bytes <:+ bytes := by
  fun_induction skipBlock depth bytes with
  | case1 => exact List.suffix_rfl
  | case2 | case3 => exact List.nil_suffix
  | case4 depth b c rest _ ih | case5 depth b c rest _ _ ih => exact ih.trans ⟨[b, c], rfl⟩
  | case6 depth b c rest _ _ ih => exact ih.trans ⟨[b], rfl⟩

theorem skipQuoted_suffix (mark : UInt8) (bytes : List UInt8) : skipQuoted mark bytes <:+ bytes := by
  fun_induction skipQuoted mark bytes with
  | case1 | case2 => exact List.nil_suffix
  | case3 c rest ih => exact ih.trans ⟨[backslash, c], rfl⟩
  | case4 c rest _ => exact ⟨[mark], rfl⟩
  | case5 b c rest _ _ ih => exact ih.trans ⟨[b], rfl⟩

theorem skipRawBody_suffix (hashes : ℕ) (bytes : List UInt8) : skipRawBody hashes bytes <:+ bytes := by
  fun_induction skipRawBody hashes bytes with
  | case1 => exact List.nil_suffix
  | case2 b rest => exact (List.drop_suffix hashes rest).trans ⟨[b], rfl⟩
  | case3 b rest _ ih => exact ih.trans ⟨[b], rfl⟩

end Skipping

/-! ## One piece -/

section Piece

variable {b : UInt8} {taken after after' rest : List UInt8} {kind : Lexeme}

/-- What is behind a piece is the end of the source. -/
theorem lexStep_suffix (b : UInt8) (rest : List UInt8) : (lexStep b rest).2 <:+ rest := by
  unfold lexStep
  split
  · exact List.suffix_rfl
  split
  · exact (skipLine_suffix _).trans (List.tail_suffix rest)
  split
  · exact (skipBlock_suffix _ _).trans (List.tail_suffix rest)
  split
  · exact skipQuoted_suffix _ _
  split
  · split
    · exact List.suffix_rfl
    · exact skipQuoted_suffix _ _
  split
  · exact (skipRawBody_suffix _ _).trans (List.drop_suffix _ rest)
  split
  · exact List.tail_suffix rest
  split
  · exact List.suffix_rfl
  split
  · exact List.dropWhile_suffix _
  · exact List.suffix_rfl

/-- What does not continue an identifier does not do so when it is blanked. -/
theorem Follows.head_of_not_ident (h : Follows after after') (hhead : ∀ c ∈ after.head?, isIdent c = false) :
    ∀ c ∈ after'.head?, isIdent c = false := by
  intro c hc
  by_cases hspace : c = space
  · rw [hspace]
    rfl
  · exact hhead c (h.head_eq hc hspace)

theorem Follows.append_head_ne {c : UInt8} (h : Follows after after') (hspace : c ≠ space)
    (hne : (taken ++ after).head? ≠ some c) : (taken ++ after').head? ≠ some c := by
  cases taken with
  | nil => exact h.head_ne hspace hne
  | cons => exact hne

/-- What a run of bytes takes continues it. -/
theorem run_taken {continues : UInt8 → Bool} (h : (taken ++ after).dropWhile continues = after) :
    (taken ++ after).takeWhile continues = taken ∧ ∀ c ∈ taken, continues c = true := by
  have htaken : (taken ++ after).takeWhile continues = taken := by
    have hsplit := List.takeWhile_append_dropWhile (p := continues) (l := taken ++ after)
    rw [h] at hsplit
    exact List.append_cancel_right hsplit
  exact ⟨htaken, fun c hc => List.mem_takeWhile_imp (htaken ▸ hc)⟩

/-- A run of bytes ends where it does in front of bytes which do not continue it. -/
theorem run_congr {continues : UInt8 → Bool} (h : (taken ++ after).dropWhile continues = after)
    (hhead : ∀ c ∈ after'.head?, continues c = false) :
    (taken ++ after').dropWhile continues = after' ∧
      (taken ++ after').takeWhile continues = (taken ++ after).takeWhile continues := by
  obtain ⟨htaken, hall⟩ := run_taken h
  rw [htaken, List.dropWhile_append_of_pos hall, List.takeWhile_append_of_pos hall]
  cases after' with
  | nil => simp
  | cons c after' =>
    have hc : ¬ continues c = true := by simpa using hhead c rfl
    simp [hc]

theorem run_head {continues : UInt8 → Bool} (h : (taken ++ after).dropWhile continues = after) :
    ∀ c ∈ after.head?, continues c = false := by
  intro c hc
  have hdrop := List.head?_dropWhile_not continues (taken ++ after)
  rw [h, hc] at hdrop
  simpa using hdrop

theorem skipLine_congr (h : skipLine (taken ++ after) = after) (hfollows : Follows after after') :
    skipLine (taken ++ after') = after' := by
  have hend : ∀ c ∈ after.head?, c = newline := fun c hc => by simpa using run_head h c hc
  exact (run_congr h fun c hc => by simp [hfollows.end_of_line hend c hc]).1

theorem rawStringHashes_eq_some {bytes : List UInt8} {hashes : ℕ} :
    rawStringHashes bytes = some hashes ↔ ∃ rest, bytes = List.replicate hashes pound ++ quote :: rest := by
  fun_induction rawStringHashes bytes generalizing hashes with
  | case1 => simp
  | case2 rest ih =>
    cases hashes with
    | zero => simp [pound, quote]
    | succ hashes => simp [ih, List.replicate_succ]
  | case3 rest =>
    cases hashes with
    | zero => simp
    | succ hashes => simp [List.replicate_succ, pound, quote]
  | case4 b rest hpound hquote => cases hashes <;> simp [List.replicate_succ, hpound, hquote]

theorem skipRawString_congr {hashes : ℕ} (hraw : rawStringHashes (taken ++ after) = some hashes)
    (h : skipRawString (taken ++ after) = after) (hne : after ≠ []) :
    rawStringHashes (taken ++ after') = some hashes ∧ skipRawString (taken ++ after') = after' := by
  obtain ⟨body, hbody⟩ := rawStringHashes_eq_some.mp hraw
  have hdrop (rest : List UInt8) : (List.replicate hashes pound ++ quote :: rest).drop (hashes + 1) = rest := by
    rw [List.drop_append]
    simp
  have hclosed : skipRawBody hashes body = after := by
    rwa [skipRawString, hraw, hbody, Option.getD_some, hdrop] at h
  obtain ⟨taken', htaken, -, hskip⟩ := skipRawBody_takes hashes body (by rwa [hclosed])
  rw [htaken, hclosed, ← List.cons_append, ← List.append_assoc] at hbody
  rw [List.append_cancel_right hbody, List.append_assoc, List.cons_append]
  have hopen : rawStringHashes (List.replicate hashes pound ++ quote :: (taken' ++ after')) = some hashes :=
    rawStringHashes_eq_some.mpr ⟨_, rfl⟩
  exact ⟨hopen, by rw [skipRawString, hopen, Option.getD_some, hdrop, hskip]⟩

theorem isLifetime_of_follows (hfollows : Follows after after') (h : isLifetime after = true) :
    isLifetime after' = true := by
  obtain ⟨hblanked, hhead⟩ := hfollows
  cases hblanked with
  | nil => exact h
  | @cons first first' after after' hfirst hrest =>
    obtain ⟨hident, hsecond⟩ : isIdentStart first = true ∧ after[0]? ≠ some apostrophe := by
      simpa [isLifetime] using h
    obtain rfl : first' = first := Option.some.inj (hhead first rfl hident)
    have hsecond' : after'[0]? ≠ some apostrophe := by
      cases hrest with
      | nil => simp
      | cons hblanked _ =>
        obtain rfl | ⟨rfl, -⟩ := hblanked
        · exact hsecond
        · simp [space, apostrophe]
    simpa [isLifetime, hident] using hsecond'

/-- What is behind the apostrophe of a character does not make it that of a lifetime. -/
theorem isLifetime_congr (h : isLifetime (taken ++ after) = false)
    (hskip : ∀ after, skipQuoted apostrophe (taken ++ after) = after) : isLifetime (taken ++ after') = false := by
  match taken with
  | [] => exact absurd (hskip [space]) (by decide)
  | [first] =>
    have hfirst : first = apostrophe := by
      by_contra hne
      have hskip := hskip [space]
      by_cases hescape : first = backslash
      · simp [skipQuoted, hescape] at hskip
      · simp [skipQuoted, hescape, hne] at hskip
    rw [hfirst]
    rfl
  | first :: second :: taken => exact h

/-- A piece which looks at the byte behind its first one takes it. -/
theorem eq_cons_of_skip {c : UInt8} {skip : List UInt8 → List UInt8} (hsuffix : ∀ bytes, skip bytes <:+ bytes)
    (hhead : (taken ++ after).head? = some c) (hskip : skip (taken ++ after).tail = after) :
    ∃ taken', taken = c :: taken' := by
  cases taken with
  | nil =>
    obtain ⟨rest, rfl⟩ := List.head?_eq_some_iff.mp hhead
    have hle := (hsuffix rest).length_le
    rw [show skip rest = c :: rest from hskip] at hle
    exact absurd hle (by simp)
  | cons c' taken => exact ⟨taken, congrArg (· :: taken) (Option.some.inj hhead)⟩

/-- The piece at the front is the same in front of what is blanked. -/
theorem lexStep_congr (h : lexStep b (taken ++ after) = (kind, after)) (hfollows : Follows after after') :
    lexStep b (taken ++ after') = (kind, after') := by
  by_cases hnil : after = []
  · obtain rfl := hnil
    rwa [hfollows.nil_iff.mp rfl]
  have hne {c : UInt8} (hspace : c ≠ space) (hhead : (taken ++ after).head? ≠ some c) :
      (taken ++ after').head? ≠ some c := hfollows.append_head_ne hspace hhead
  -- a piece of one byte takes nothing more
  have hsingle {k : Lexeme} (hpair : (k, taken ++ after) = (kind, after)) : (k, taken ++ after') = (kind, after') := by
    obtain ⟨rfl, happend⟩ := Prod.mk.inj hpair
    rw [List.append_left_eq_self.mp happend, List.nil_append]
  unfold lexStep at h ⊢
  by_cases hwhitespace : isWhitespace b = true
  · rw [if_pos hwhitespace] at h ⊢
    exact hsingle h
  rw [if_neg hwhitespace] at h ⊢
  by_cases hline : b = slash ∧ (taken ++ after).head? = some slash
  · rw [if_pos hline] at h
    obtain ⟨rfl, hskip⟩ := Prod.mk.inj h
    obtain ⟨taken, rfl⟩ := eq_cons_of_skip skipLine_suffix hline.2 hskip
    rw [if_pos ⟨hline.1, rfl⟩]
    exact congrArg (Lexeme.lineComment, ·) (skipLine_congr hskip hfollows)
  rw [if_neg hline] at h
  rw [if_neg fun hline' => hne (by decide) (fun hhead => hline ⟨hline'.1, hhead⟩) hline'.2]
  by_cases hblock : b = slash ∧ (taken ++ after).head? = some star
  · rw [if_pos hblock] at h
    obtain ⟨rfl, hskip⟩ := Prod.mk.inj h
    obtain ⟨taken, rfl⟩ := eq_cons_of_skip (skipBlock_suffix 1) hblock.2 hskip
    rw [if_pos ⟨hblock.1, rfl⟩]
    exact congrArg (Lexeme.blockComment, ·) ((skipBlock_ends 1 _).congr hskip hfollows.nil_iff)
  rw [if_neg hblock] at h
  rw [if_neg fun hblock' => hne (by decide) (fun hhead => hblock ⟨hblock'.1, hhead⟩) hblock'.2]
  by_cases hquote : b = quote
  · rw [if_pos hquote] at h ⊢
    obtain ⟨rfl, hskip⟩ := Prod.mk.inj h
    exact congrArg (Lexeme.literal, ·) ((skipQuoted_ends quote _).congr hskip hfollows.nil_iff)
  rw [if_neg hquote] at h ⊢
  by_cases hapostrophe : b = apostrophe
  · rw [if_pos hapostrophe] at h ⊢
    by_cases hlifetime : isLifetime (taken ++ after) = true
    · rw [if_pos hlifetime] at h
      obtain ⟨rfl, happend⟩ := Prod.mk.inj h
      obtain rfl := List.append_left_eq_self.mp happend
      rw [List.nil_append] at hlifetime ⊢
      rw [if_pos (isLifetime_of_follows hfollows hlifetime)]
    · rw [if_neg hlifetime] at h
      obtain ⟨rfl, hskip⟩ := Prod.mk.inj h
      obtain ⟨taken', htaken', hends⟩ := skipQuoted_ends apostrophe (taken ++ after) (by rwa [hskip])
      rw [hskip] at htaken'
      obtain rfl := List.append_cancel_right htaken'
      rw [isLifetime_congr (by simpa using hlifetime) hends, hends]
      rfl
  rw [if_neg hapostrophe] at h ⊢
  by_cases hraw : b = lowerR ∧ (rawStringHashes (taken ++ after)).isSome = true
  · rw [if_pos hraw] at h
    obtain ⟨rfl, hskip⟩ := Prod.mk.inj h
    obtain ⟨hashes, hhashes⟩ := Option.isSome_iff_exists.mp hraw.2
    obtain ⟨hhashes', hskip'⟩ : rawStringHashes (taken ++ after') = some hashes ∧
        skipRawString (taken ++ after') = after' := skipRawString_congr hhashes hskip hnil
    rw [if_pos ⟨hraw.1, by rw [hhashes']; rfl⟩, hskip']
  rw [if_neg hraw] at h
  have hraw' : ¬ (b = lowerR ∧ (rawStringHashes (taken ++ after')).isSome = true) := by
    rintro ⟨hb, hsome⟩
    have hnone : rawStringHashes (taken ++ after) = none := by
      simpa [hb] using hraw
    rw [rawStringHashes_append_of_follows taken hfollows hnone] at hsome
    cases hsome
  rw [if_neg hraw']
  by_cases hcolon : b = colon ∧ (taken ++ after).head? = some colon
  · rw [if_pos hcolon] at h
    obtain ⟨rfl, htail⟩ := Prod.mk.inj h
    obtain ⟨taken, rfl⟩ := eq_cons_of_skip (fun _ => List.suffix_rfl) hcolon.2 htail
    obtain rfl : taken = [] := List.append_left_eq_self.mp htail
    rw [if_pos ⟨hcolon.1, rfl⟩]
    rfl
  rw [if_neg hcolon] at h
  rw [if_neg fun hcolon' => hne (by decide) (fun hhead => hcolon ⟨hcolon'.1, hhead⟩) hcolon'.2]
  cases hmark : mark? b with
  | some mark =>
    rw [hmark] at h
    exact hsingle h
  | none =>
    rw [hmark] at h
    simp only at h ⊢
    by_cases hstart : isIdentStart b = true
    · rw [if_pos hstart] at h ⊢
      obtain ⟨rfl, hdrop⟩ := Prod.mk.inj h
      obtain ⟨hdrop', htake⟩ := run_congr hdrop (hfollows.head_of_not_ident (run_head hdrop))
      rw [hdrop', htake]
    · rw [if_neg hstart] at h ⊢
      exact hsingle h

/-- A line comment ends in front of a newline or the end of the source. -/
theorem lexStep_lineComment (h : lexStep b (taken ++ after) = (.lineComment, after)) :
    b = slash ∧ ∃ text, taken = slash :: text ∧ (∀ c ∈ text, c ≠ newline) ∧ ∀ c ∈ after.head?, c = newline := by
  obtain ⟨hb, hhead, hskip⟩ : b = slash ∧ (taken ++ after).head? = some slash ∧
      skipLine (taken ++ after).tail = after := by
    unfold lexStep at h
    split at h
    · cases h
    split at h
    next hline => exact ⟨hline.1, hline.2, (Prod.mk.inj h).2⟩
    · repeat' split at h
      all_goals cases h
  obtain ⟨text, rfl⟩ := eq_cons_of_skip skipLine_suffix hhead hskip
  refine ⟨hb, text, rfl, fun c hc => ?_, fun c hc => ?_⟩
  · simpa using (run_taken hskip).2 c hc
  · simpa using run_head hskip c hc

/-- A line of a source is a line comment by its first two bytes. -/
theorem lexStep_of_line {text : List UInt8} (hline : ∀ c ∈ text, c ≠ newline) (hend : ∀ c ∈ after.head?, c = newline) :
    lexStep slash (slash :: text ++ after) = (.lineComment, after) := by
  have hall : ∀ c ∈ text, (c != newline) = true := by simpa using hline
  have hskip : skipLine (text ++ after) = after := by
    rw [skipLine, List.dropWhile_append_of_pos hall]
    cases after with
    | nil => rfl
    | cons c after => simp [hend c rfl]
  rw [lexStep, if_neg (by decide), if_pos ⟨rfl, rfl⟩]
  exact congrArg (Lexeme.lineComment, ·) hskip

theorem lexStep_blockComment (h : lexStep b (taken ++ after) = (.blockComment, after)) :
    b = slash ∧ ∃ text, taken = star :: text ∧ skipBlock 1 (text ++ after) = after := by
  obtain ⟨hb, hhead, hskip⟩ : b = slash ∧ (taken ++ after).head? = some star ∧
      skipBlock 1 (taken ++ after).tail = after := by
    unfold lexStep at h
    split at h
    · cases h
    split at h
    · cases h
    split at h
    next hblock => exact ⟨hblock.1, hblock.2, (Prod.mk.inj h).2⟩
    · repeat' split at h
      all_goals cases h
  obtain ⟨text, rfl⟩ := eq_cons_of_skip (skipBlock_suffix 1) hhead hskip
  exact ⟨hb, text, rfl, hskip⟩

end Piece

/-! ## All pieces -/

section Pieces

variable {b : UInt8} {source rest taken after : List UInt8} {kind : Lexeme} {passes : ℕ}

theorem lexStep_length_le (b : UInt8) (rest : List UInt8) : (lexStep b rest).2.length ≤ rest.length :=
  (lexStep_suffix b rest).length_le

theorem tokenizeLoop_succ_cons : tokenizeLoop (passes + 1) (b :: rest) =
    (lexStep b rest).1.token?.toList ++ tokenizeLoop passes (lexStep b rest).2 := by
  rw [tokenizeLoop]
  obtain ⟨kind, after⟩ := lexStep b rest
  cases kind <;> rfl

/-- Passes there are enough of give the same tokens. -/
theorem tokenizeLoop_eq (hle : source.length ≤ passes) : tokenizeLoop passes source = tokenize source := by
  induction hlength : source.length using Nat.strong_induction_on generalizing source passes with
  | _ length ih =>
    subst hlength
    cases source with
    | nil => cases passes <;> rfl
    | cons b rest =>
      cases passes with
      | zero => simp at hle
      | succ passes =>
        have hshorter := lexStep_length_le b rest
        have hrest : (lexStep b rest).2.length < (b :: rest).length := Nat.lt_succ_of_le hshorter
        rw [tokenize, List.length_cons, tokenizeLoop_succ_cons, tokenizeLoop_succ_cons,
          ih _ hrest (by simp at hle; omega) rfl, ih _ hrest hshorter rfl]

@[simp] theorem tokenize_nil : tokenize [] = [] := rfl

/-- The tokens of a source are those of its first piece and of what is behind it. -/
theorem tokenize_append (h : lexStep b (taken ++ after) = (kind, after)) :
    tokenize (b :: (taken ++ after)) = kind.token?.toList ++ tokenize after := by
  rw [tokenize, List.length_cons, tokenizeLoop_succ_cons, h, tokenizeLoop_eq]
  simp

/-- Blanked bytes are no tokens. -/
theorem tokenize_blank_append (bytes after : List UInt8) : tokenize (bytes.map blank ++ after) = tokenize after := by
  induction bytes with
  | nil => rfl
  | cons b bytes ih =>
    have hstep : lexStep (blank b) ([] ++ (bytes.map blank ++ after)) = (.whitespace, bytes.map blank ++ after) := by
      rw [lexStep, if_pos (isWhitespace_blank b)]
      rfl
    exact (tokenize_append hstep).trans ih

theorem piecesLoop_eq (hle : source.length ≤ passes) : piecesLoop passes source = pieces source := by
  induction hlength : source.length using Nat.strong_induction_on generalizing source passes with
  | _ length ih =>
    subst hlength
    cases source with
    | nil => cases passes <;> rfl
    | cons b rest =>
      cases passes with
      | zero => simp at hle
      | succ passes =>
        have hshorter := lexStep_length_le b rest
        have hrest : (lexStep b rest).2.length < (b :: rest).length := Nat.lt_succ_of_le hshorter
        rw [pieces, List.length_cons, piecesLoop, piecesLoop, ih _ hrest (by simp at hle; omega) rfl,
          ih _ hrest hshorter rfl]

@[simp] theorem pieces_nil : pieces [] = [] := rfl

theorem pieces_append (h : lexStep b (taken ++ after) = (kind, after)) :
    pieces (b :: (taken ++ after)) = ⟨kind, b :: taken⟩ :: pieces after := by
  rw [pieces, List.length_cons, piecesLoop, h, piecesLoop_eq (by simp)]
  simp

/-- Sources piece by piece. -/
@[elab_as_elim] theorem piecesInduction {motive : List UInt8 → Prop} (nil : motive [])
    (piece : ∀ b taken after kind, lexStep b (taken ++ after) = (kind, after) → motive after →
      motive (b :: (taken ++ after)))
    (source : List UInt8) : motive source := by
  induction hlength : source.length using Nat.strong_induction_on generalizing source with
  | _ length ih =>
    subst hlength
    cases source with
    | nil => exact nil
    | cons b rest =>
      obtain ⟨taken, htaken⟩ := lexStep_suffix b rest
      have hrest := ih _ (Nat.lt_succ_of_le (lexStep_length_le b rest)) _ rfl
      have hpiece := piece b taken (lexStep b rest).2 (lexStep b rest).1 (by rw [htaken]) hrest
      rwa [htaken] at hpiece

/-- The pieces of a source are the source. -/
theorem flatMap_text_pieces (source : List UInt8) : (pieces source).flatMap Piece.text = source := by
  induction source using piecesInduction with
  | nil => rfl
  | piece b taken after kind h ih => rw [pieces_append h, List.flatMap_cons, ih, List.cons_append]

/-- What the lexer takes each byte of a source for. -/
def kinds (source : List UInt8) : List Lexeme :=
  (pieces source).flatMap fun piece => List.replicate piece.text.length piece.kind

theorem kinds_append (h : lexStep b (taken ++ after) = (kind, after)) :
    kinds (b :: (taken ++ after)) = List.replicate (b :: taken).length kind ++ kinds after := by
  rw [kinds, pieces_append h, List.flatMap_cons]
  rfl

end Pieces

end Voicetext.Xtask
