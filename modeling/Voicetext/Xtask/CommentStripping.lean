import Voicetext.Xtask.Relexing

/-!
# Comments out of sources

The purity rules read a source without its comments, which a second lexer blanks. It knows no lifetimes and no
raw strings: an apostrophe opens a character, and a quote a string, wherever both are shut. From there on it and
the verifier's own lexer may differ on what is code, and the place where it first takes code for the start of a
comment is where they do. Where it takes none, nothing but comments is blanked and no token is lost.
-/

namespace Voicetext.Xtask

open Byte

/-! ## The second lexer -/

/-- What the lexer which blanks comments takes itself to be in. -/
structure Quotes where
  inString : Bool
  inCharacter : Bool
  escaped : Bool
deriving DecidableEq

namespace Quotes

def start : Quotes := ⟨false, false, false⟩

def shut (quotes : Quotes) : Bool := !quotes.inString && !quotes.inCharacter

/-- What a byte outside of the blanked comments changes. -/
def after (quotes : Quotes) (b : UInt8) : Quotes :=
  if quotes.escaped then { quotes with escaped := false }
  else if !quotes.shut ∧ b = backslash then { quotes with escaped := true }
  else if !quotes.inCharacter ∧ b = quote then { quotes with inString := !quotes.inString }
  else if !quotes.inString ∧ b = apostrophe then { quotes with inCharacter := !quotes.inCharacter }
  else quotes

end Quotes

/-- One pass through the loop of `without_comments` at a byte: what it pushes, and the depth, the quotes and the
bytes it goes on with. -/
def scanStep (blockDepth : ℕ) (quotes : Quotes) (b : UInt8) (rest : List UInt8) :
    List UInt8 × ℕ × Quotes × List UInt8 :=
  if 0 < blockDepth then
    if b = slash ∧ rest.head? = some star then ([space, space], blockDepth + 1, quotes, rest.tail)
    else if b = star ∧ rest.head? = some slash then ([space, space], blockDepth - 1, quotes, rest.tail)
    else ([blank b], blockDepth, quotes, rest)
  else if quotes.shut ∧ b = slash ∧ rest.head? = some star then ([space, space], 1, quotes, rest.tail)
  else if quotes.shut ∧ b = slash ∧ rest.head? = some slash then
    (((b :: rest).takeWhile (· != newline)).map fun _ => space, 0, quotes, skipLine (b :: rest))
  else ([b], 0, quotes.after b, rest)

/-- The loop of `without_comments`, for a number of passes. -/
def withoutCommentsLoop : ℕ → ℕ → Quotes → List UInt8 → List UInt8
  | 0, _, _, _ => []
  | _ + 1, _, _, [] => []
  | passes + 1, blockDepth, quotes, b :: rest =>
    let (pushed, blockDepth, quotes, rest) := scanStep blockDepth quotes b rest
    pushed ++ withoutCommentsLoop passes blockDepth quotes rest

/-- `without_comments`, from a place of the source on. -/
def withoutCommentsFrom (blockDepth : ℕ) (quotes : Quotes) (source : List UInt8) : List UInt8 :=
  withoutCommentsLoop source.length blockDepth quotes source

/-- `without_comments`. -/
def withoutComments (source : List UInt8) : List UInt8 := withoutCommentsFrom 0 .start source

/-! ## Where it takes code for a comment -/

/-- Read bytes of a piece which is not blanked, with what is behind it, as far as no comment starts in it. In a
line comment, one more `//` changes nothing. -/
def readOn (lineComment : Bool) : Quotes → List UInt8 → List UInt8 → Option Quotes
  | quotes, [], _ => some quotes
  | quotes, b :: text, following =>
    if quotes.shut ∧ b = slash ∧ (text ++ following).head? = some star then none
    else if quotes.shut ∧ b = slash ∧ (text ++ following).head? = some slash then
      if lineComment then some quotes else none
    else readOn lineComment (quotes.after b) text following

/-- The first piece in which a comment starts for the lexer which blanks comments, but not for the other. -/
def firstClash : Quotes → List Piece → Option Lexeme
  | _, [] => none
  | quotes, piece :: rest =>
    if piece.kind.isComment ∧ quotes.shut then firstClash quotes rest
    else
      match readOn (piece.kind = .lineComment) quotes piece.text (rest.flatMap Piece.text) with
      | some quotes => firstClash quotes rest
      | none => some piece.kind

/-! ## What is pushed -/

section Pushed

variable {blockDepth passes : ℕ} {quotes quotes' : Quotes} {b : UInt8} {rest source text following : List UInt8}

theorem scanStep_length_le (blockDepth : ℕ) (quotes : Quotes) (b : UInt8) (rest : List UInt8) :
    (scanStep blockDepth quotes b rest).2.2.2.length ≤ rest.length := by
  have htail : rest.tail.length ≤ rest.length := by simp
  unfold scanStep
  split
  · split
    · exact htail
    split
    · exact htail
    · exact le_rfl
  split
  · exact htail
  split
  next h =>
    obtain ⟨-, rfl, -⟩ := h
    exact (skipLine_suffix rest).length_le
  · exact le_rfl

theorem withoutCommentsLoop_eq (hle : source.length ≤ passes) :
    withoutCommentsLoop passes blockDepth quotes source = withoutCommentsFrom blockDepth quotes source := by
  induction hlength : source.length using Nat.strong_induction_on generalizing source passes blockDepth quotes with
  | _ length ih =>
    subst hlength
    cases source with
    | nil => cases passes <;> rfl
    | cons b rest =>
      cases passes with
      | zero => simp at hle
      | succ passes =>
        have hshorter := scanStep_length_le blockDepth quotes b rest
        have hrest : (scanStep blockDepth quotes b rest).2.2.2.length < (b :: rest).length := Nat.lt_succ_of_le hshorter
        rw [withoutCommentsFrom, List.length_cons, withoutCommentsLoop, withoutCommentsLoop]
        simp only
        rw [ih _ hrest (by simp at hle; omega) rfl, ih _ hrest hshorter rfl]

@[simp] theorem withoutCommentsFrom_nil : withoutCommentsFrom blockDepth quotes [] = [] := rfl

theorem withoutCommentsFrom_cons {pushed : List UInt8} {blockDepth' : ℕ} {rest' : List UInt8}
    (h : scanStep blockDepth quotes b rest = (pushed, blockDepth', quotes', rest')) :
    withoutCommentsFrom blockDepth quotes (b :: rest) = pushed ++ withoutCommentsFrom blockDepth' quotes' rest' := by
  have hle := scanStep_length_le blockDepth quotes b rest
  rw [h] at hle
  rw [withoutCommentsFrom, List.length_cons, withoutCommentsLoop, h]
  simp only
  rw [withoutCommentsLoop_eq hle]

/-- A block comment is blanked to its end. -/
theorem withoutCommentsFrom_block (quotes : Quotes) (blockDepth : ℕ) (bytes : List UInt8) : ∃ taken,
    bytes = taken ++ skipBlock blockDepth bytes ∧
      withoutCommentsFrom blockDepth quotes bytes =
        taken.map blank ++ withoutCommentsFrom 0 quotes (skipBlock blockDepth bytes) := by
  fun_induction skipBlock blockDepth bytes with
  | case1 bytes => exact ⟨[], rfl, rfl⟩
  | case2 blockDepth => exact ⟨[], rfl, rfl⟩
  | case3 blockDepth b =>
    have hstep : scanStep (blockDepth + 1) quotes b [] = ([blank b], blockDepth + 1, quotes, []) := by
      simp [scanStep]
    refine ⟨[b], rfl, ?_⟩
    rw [withoutCommentsFrom_cons hstep]
    rfl
  | case4 blockDepth b c rest hopen ih =>
    obtain ⟨taken, htaken, hpushed⟩ := ih
    obtain ⟨rfl, rfl⟩ := hopen
    have hstep : scanStep (blockDepth + 1) quotes slash (star :: rest) =
        ([space, space], blockDepth + 2, quotes, rest) := by simp [scanStep]
    refine ⟨slash :: star :: taken, congrArg (slash :: star :: ·) htaken, ?_⟩
    rw [withoutCommentsFrom_cons hstep, hpushed]
    rfl
  | case5 blockDepth b c rest hopen hclose ih =>
    obtain ⟨taken, htaken, hpushed⟩ := ih
    obtain ⟨rfl, rfl⟩ := hclose
    have hstep : scanStep (blockDepth + 1) quotes star (slash :: rest) = ([space, space], blockDepth, quotes, rest) := by
      simp [scanStep, Byte.star, slash]
    refine ⟨star :: slash :: taken, congrArg (star :: slash :: ·) htaken, ?_⟩
    rw [withoutCommentsFrom_cons hstep, hpushed]
    rfl
  | case6 blockDepth b c rest hopen hclose ih =>
    obtain ⟨taken, htaken, hpushed⟩ := ih
    have hstep : scanStep (blockDepth + 1) quotes b (c :: rest) = ([blank b], blockDepth + 1, quotes, c :: rest) := by
      simp [scanStep, hopen, hclose]
    refine ⟨b :: taken, congrArg (b :: ·) htaken, ?_⟩
    rw [withoutCommentsFrom_cons hstep, hpushed]
    rfl

/-- A line is blanked to its end. -/
theorem withoutCommentsFrom_line (hshut : quotes.shut = true) (hstart : text.take 2 = [slash, slash])
    (hline : ∀ c ∈ text, c ≠ newline) (hend : ∀ c ∈ following.head?, c = newline) :
    withoutCommentsFrom 0 quotes (text ++ following) = text.map blank ++ withoutCommentsFrom 0 quotes following := by
  obtain ⟨text, rfl⟩ : ∃ tail, text = slash :: slash :: tail :=
    ⟨text.drop 2, by simpa [hstart] using (List.take_append_drop 2 text).symm⟩
  have hall : ∀ c ∈ slash :: slash :: text, (c != newline) = true := by simpa using hline
  have hstop : following.takeWhile (· != newline) = [] ∧ following.dropWhile (· != newline) = following := by
    cases following with
    | nil => simp
    | cons c following => simp [hend c rfl]
  have hblank : (slash :: slash :: text).map (fun _ => space) = (slash :: slash :: text).map blank :=
    List.map_congr_left fun c hc => (if_neg (hline c hc)).symm
  have hstep : scanStep 0 quotes slash (slash :: text ++ following) =
      ((slash :: slash :: text).map blank, 0, quotes, following) := by
    have htake : (slash :: slash :: text ++ following).takeWhile (· != newline) = slash :: slash :: text := by
      rw [List.takeWhile_append_of_pos hall, hstop.1, List.append_nil]
    have hdrop : (slash :: slash :: text ++ following).dropWhile (· != newline) = following := by
      rw [List.dropWhile_append_of_pos hall, hstop.2]
    rw [List.cons_append] at htake hdrop
    rw [scanStep, if_neg (by simp), if_neg (by simp [slash, Byte.star]), if_pos ⟨hshut, rfl, rfl⟩, htake, skipLine, hdrop,
      hblank]
  exact withoutCommentsFrom_cons hstep

/-- A byte at which no comment starts is kept. -/
theorem withoutCommentsFrom_keep (hblock : ¬ (quotes.shut ∧ b = slash ∧ rest.head? = some star))
    (hline : ¬ (quotes.shut ∧ b = slash ∧ rest.head? = some slash)) :
    withoutCommentsFrom 0 quotes (b :: rest) = b :: withoutCommentsFrom 0 (quotes.after b) rest := by
  have hstep : scanStep 0 quotes b rest = ([b], 0, quotes.after b, rest) := by
    rw [scanStep, if_neg (by simp), if_neg hblock, if_neg hline]
  exact withoutCommentsFrom_cons hstep

/-- Bytes in which no comment starts are kept. -/
theorem withoutCommentsFrom_readOn (h : readOn false quotes text following = some quotes') :
    withoutCommentsFrom 0 quotes (text ++ following) = text ++ withoutCommentsFrom 0 quotes' following := by
  induction text generalizing quotes with
  | nil =>
    obtain rfl := Option.some.inj h
    rfl
  | cons b text ih =>
    rw [readOn] at h
    by_cases hblock : quotes.shut ∧ b = slash ∧ (text ++ following).head? = some star
    · rw [if_pos hblock] at h
      cases h
    rw [if_neg hblock] at h
    by_cases hline : quotes.shut ∧ b = slash ∧ (text ++ following).head? = some slash
    · rw [if_pos hline, if_neg Bool.false_ne_true] at h
      cases h
    rw [if_neg hline] at h
    rw [List.cons_append, withoutCommentsFrom_keep hblock hline, ih h, List.cons_append]

/-- A line comment which is not blanked from its start is kept up to the next `//` for which both are shut. -/
theorem withoutCommentsFrom_readOn_line (h : readOn true quotes text following = some quotes')
    (hline : ∀ c ∈ text, c ≠ newline) (hend : ∀ c ∈ following.head?, c = newline) :
    ∃ kept blanked, text = kept ++ blanked ∧ withoutCommentsFrom 0 quotes (text ++ following) =
      kept ++ blanked.map blank ++ withoutCommentsFrom 0 quotes' following := by
  induction text generalizing quotes with
  | nil =>
    obtain rfl := Option.some.inj h
    exact ⟨[], [], rfl, rfl⟩
  | cons b text ih =>
    rw [readOn] at h
    by_cases hblock : quotes.shut ∧ b = slash ∧ (text ++ following).head? = some star
    · rw [if_pos hblock] at h
      cases h
    rw [if_neg hblock] at h
    by_cases hopen : quotes.shut ∧ b = slash ∧ (text ++ following).head? = some slash
    · rw [if_pos hopen, if_pos rfl] at h
      obtain rfl := Option.some.inj h
      obtain ⟨hshut, rfl, hslash⟩ := hopen
      have hstart : (slash :: text).take 2 = [slash, slash] := by
        cases text with
        | nil => exact absurd (hend slash hslash) (by decide)
        | cons c text => rw [Option.some.inj hslash]; rfl
      exact ⟨[], slash :: text, rfl, withoutCommentsFrom_line hshut hstart hline hend⟩
    · rw [if_neg hopen] at h
      obtain ⟨kept, blanked, rfl, hpushed⟩ := ih h fun c hc => hline c (List.mem_cons_of_mem b hc)
      refine ⟨b :: kept, blanked, rfl, ?_⟩
      rw [List.cons_append, withoutCommentsFrom_keep hblock hopen, hpushed]
      simp

/-- Where a comment starts for the lexer which blanks comments, a slash is blanked. -/
theorem blanked_of_readOn_none (h : readOn false quotes text following = none) :
    ∃ i < text.length,
      (withoutCommentsFrom 0 quotes (text ++ following))[i]? ≠ (text ++ following)[i]? := by
  induction text generalizing quotes with
  | nil => cases h
  | cons b text ih =>
    rw [readOn] at h
    by_cases hblock : quotes.shut ∧ b = slash ∧ (text ++ following).head? = some star
    · have hstep : scanStep 0 quotes b (text ++ following) = ([space, space], 1, quotes, (text ++ following).tail) := by
        rw [scanStep, if_neg (by simp), if_pos hblock]
      refine ⟨0, by simp, ?_⟩
      rw [List.cons_append, withoutCommentsFrom_cons hstep]
      simp [hblock.2.1, space, slash]
    rw [if_neg hblock] at h
    by_cases hline : quotes.shut ∧ b = slash ∧ (text ++ following).head? = some slash
    · obtain ⟨hshut, rfl, hhead⟩ := hline
      have hstep : scanStep 0 quotes slash (text ++ following) =
          (((slash :: (text ++ following)).takeWhile (· != newline)).map fun _ => space, 0, quotes,
            skipLine (slash :: (text ++ following))) := by
        rw [scanStep, if_neg (by simp), if_neg hblock, if_pos ⟨hshut, rfl, hhead⟩]
      refine ⟨0, by simp, ?_⟩
      rw [List.cons_append, withoutCommentsFrom_cons hstep]
      simp [space, slash, newline]
    · rw [if_neg hline] at h
      obtain ⟨i, hi, hne⟩ := ih h
      refine ⟨i + 1, by simpa using hi, ?_⟩
      rw [List.cons_append, withoutCommentsFrom_keep hblock hline]
      simpa using hne

@[simp] theorem Quotes.shut_after_slash (quotes : Quotes) : (quotes.after slash).shut = quotes.shut := by
  unfold Quotes.after
  split
  · rfl
  · rw [if_neg (by simp [slash, backslash]), if_neg (by simp [slash, quote]), if_neg (by simp [slash, apostrophe])]

/-- What one pass pushes are the bytes it takes, as they are or blanked. -/
theorem scanStep_blanked {pushed : List UInt8} {blockDepth' : ℕ} {rest' : List UInt8}
    (h : scanStep blockDepth quotes b rest = (pushed, blockDepth', quotes', rest')) :
    ∃ taken, b :: rest = taken ++ rest' ∧ List.Forall₂ Blanked taken pushed := by
  have hpair {b' c : UInt8} (hhead : rest.head? = some c) (hb : b' ≠ newline) (hc : c ≠ newline) :
      ∃ taken, b' :: rest = taken ++ rest.tail ∧ List.Forall₂ Blanked taken [space, space] := by
    obtain ⟨rest, rfl⟩ := List.head?_eq_some_iff.mp hhead
    exact ⟨[b', c], rfl, .cons (.inr ⟨rfl, hb⟩) (.cons (.inr ⟨rfl, hc⟩) .nil)⟩
  unfold scanStep at h
  split at h
  · split at h
    next hopen =>
      cases h
      obtain ⟨rfl, hhead⟩ := hopen
      exact hpair hhead (by decide) (by decide)
    split at h
    next hclose =>
      cases h
      obtain ⟨rfl, hhead⟩ := hclose
      exact hpair hhead (by decide) (by decide)
    · cases h
      exact ⟨[b], rfl, .cons (blanked_blank b) .nil⟩
  split at h
  next hopen =>
    cases h
    obtain ⟨-, rfl, hhead⟩ := hopen
    exact hpair hhead (by decide) (by decide)
  split at h
  · cases h
    refine ⟨(b :: rest).takeWhile (· != newline), List.takeWhile_append_dropWhile.symm, ?_⟩
    refine List.forall₂_map_right_iff.mpr (List.forall₂_same.mpr fun c hc => Or.inr ⟨rfl, ?_⟩)
    simpa using List.mem_takeWhile_imp hc
  · cases h
    exact ⟨[b], rfl, .cons (.inl rfl) .nil⟩

/-- The length and the newlines are kept, and no byte becomes anything but a space. -/
theorem withoutCommentsFrom_blanked (blockDepth : ℕ) (quotes : Quotes) (source : List UInt8) :
    List.Forall₂ Blanked source (withoutCommentsFrom blockDepth quotes source) := by
  induction hlength : source.length using Nat.strong_induction_on generalizing source blockDepth quotes with
  | _ length ih =>
    subst hlength
    cases source with
    | nil => exact .nil
    | cons b rest =>
      obtain ⟨⟨pushed, blockDepth', quotes', rest'⟩, hstep⟩ : ∃ result, scanStep blockDepth quotes b rest = result :=
        ⟨_, rfl⟩
      obtain ⟨taken, htaken, hpushed⟩ := scanStep_blanked hstep
      have hle := scanStep_length_le blockDepth quotes b rest
      rw [hstep] at hle
      rw [withoutCommentsFrom_cons hstep, htaken]
      exact List.rel_append hpushed (ih _ (Nat.lt_succ_of_le hle) blockDepth' quotes' rest' rfl)

/-- Outside of block comments, the lexer of tokens reads on at what is pushed as it does at the source. -/
theorem follows_withoutCommentsFrom (quotes : Quotes) (source : List UInt8) :
    Follows source (withoutCommentsFrom 0 quotes source) := by
  refine ⟨withoutCommentsFrom_blanked 0 quotes source, fun b hb hident => ?_⟩
  obtain ⟨rest, rfl⟩ := List.head?_eq_some_iff.mp hb
  have hslash : b ≠ slash := by
    rintro rfl
    exact absurd hident (by decide)
  rw [withoutCommentsFrom_keep (fun h => hslash h.2.1) fun h => hslash h.2.1]
  rfl

end Pushed

/-! ## Piece by piece -/

section Pieces

variable {quotes quotes' : Quotes} {b : UInt8} {source text text' taken after : List UInt8} {kind : Lexeme}

theorem Lexeme.token?_of_isComment (h : kind.isComment = true) : kind.token? = none := by
  cases kind <;> first | rfl | cases h

/-- A comment which starts for both lexers is blanked to its end. -/
theorem withoutCommentsFrom_comment (hcomment : kind.isComment = true) (hshut : quotes.shut = true)
    (h : lexStep b (taken ++ after) = (kind, after)) :
    withoutCommentsFrom 0 quotes (b :: (taken ++ after)) =
      (b :: taken).map blank ++ withoutCommentsFrom 0 quotes after := by
  cases kind with
  | lineComment =>
    obtain ⟨rfl, text, rfl, hline, hend⟩ := lexStep_lineComment h
    have hall : ∀ c ∈ slash :: slash :: text, c ≠ newline := by
      simpa [slash, newline] using hline
    exact withoutCommentsFrom_line hshut rfl hall hend
  | blockComment =>
    obtain ⟨rfl, text, rfl, hskip⟩ := lexStep_blockComment h
    have hstep : scanStep 0 quotes slash (star :: text ++ after) = ([space, space], 1, quotes, text ++ after) := by
      rw [scanStep, if_neg (by simp), if_pos ⟨hshut, rfl, rfl⟩]
      rfl
    obtain ⟨taken, htaken, hpushed⟩ := withoutCommentsFrom_block quotes 1 (text ++ after)
    rw [hskip] at htaken hpushed
    obtain rfl := List.append_cancel_right htaken
    rw [withoutCommentsFrom_cons hstep, hpushed]
    rfl
  | _ => cases hcomment

/-- A piece which is passed without a clash: the quotes behind it, and what is pushed for it. -/
structure PieceRead (quotes : Quotes) (kind : Lexeme) (text after : List UInt8) (quotes' : Quotes)
    (text' : List UInt8) : Prop where
  firstClash : firstClash quotes (⟨kind, text⟩ :: pieces after) = firstClash quotes' (pieces after)
  pushed : withoutCommentsFrom 0 quotes (text ++ after) = text' ++ withoutCommentsFrom 0 quotes' after
  length : text'.length = text.length
  kept : text' = text ∨ kind.isComment = true
  tokens : ∀ after', Follows after after' → tokenize (text' ++ after') = kind.token?.toList ++ tokenize after'

theorem PieceRead.of_comment (hcomment : kind.isComment = true) (hshut : quotes.shut = true)
    (h : lexStep b (taken ++ after) = (kind, after)) :
    PieceRead quotes kind (b :: taken) after quotes ((b :: taken).map blank) where
  firstClash := by rw [Voicetext.Xtask.firstClash, if_pos ⟨hcomment, hshut⟩]
  pushed := withoutCommentsFrom_comment hcomment hshut h
  length := by simp
  kept := Or.inr hcomment
  tokens after' _ := by
    rw [tokenize_blank_append, Lexeme.token?_of_isComment hcomment]
    rfl

theorem firstClash_cons_of_readOn (hkept : ¬ (kind.isComment = true ∧ quotes.shut = true))
    (hread : readOn (kind = .lineComment) quotes text after = some quotes') :
    firstClash quotes (⟨kind, text⟩ :: pieces after) = firstClash quotes' (pieces after) := by
  rw [firstClash, if_neg hkept, flatMap_text_pieces, hread]

theorem PieceRead.of_readOn (hkept : ¬ (kind.isComment = true ∧ quotes.shut = true))
    (h : lexStep b (taken ++ after) = (kind, after))
    (hread : readOn (kind = .lineComment) quotes (b :: taken) after = some quotes') :
    ∃ text', PieceRead quotes kind (b :: taken) after quotes' text' := by
  by_cases hline : kind = .lineComment
  · obtain rfl := hline
    obtain ⟨rfl, text, rfl, hline, hend⟩ := lexStep_lineComment h
    have hopen : quotes.shut = false := by simpa [Lexeme.isComment] using hkept
    have hopen' : (quotes.after slash).shut = false := by rw [Quotes.shut_after_slash, hopen]
    -- the `//` of the comment is read with an open quote
    have hreadText : readOn true ((quotes.after slash).after slash) text after = some quotes' := by
      simpa [readOn, hopen, hopen'] using hread
    obtain ⟨kept, blanked, rfl, hpushed⟩ := withoutCommentsFrom_readOn_line hreadText hline hend
    refine ⟨slash :: slash :: (kept ++ blanked.map blank), firstClash_cons_of_readOn hkept hread, ?_, by simp,
      Or.inr rfl, fun after' hfollows => ?_⟩
    · simp only [List.cons_append]
      rw [withoutCommentsFrom_keep (by simp [hopen]) (by simp [hopen]),
        withoutCommentsFrom_keep (by simp [hopen']) (by simp [hopen']), hpushed]
    · have hline' : ∀ c ∈ kept ++ blanked.map blank, c ≠ newline := by
        intro c hc
        rcases List.mem_append.mp hc with hc | hc
        · exact hline c (List.mem_append_left _ hc)
        · obtain ⟨d, hd, rfl⟩ := List.mem_map.mp hc
          rw [blank, if_neg (hline d (List.mem_append_right _ hd))]
          decide
      exact tokenize_append (lexStep_of_line hline' (hfollows.end_of_line hend))
  · have hread' : readOn false quotes (b :: taken) after = some quotes' := by simpa [hline] using hread
    exact ⟨b :: taken, firstClash_cons_of_readOn hkept hread, withoutCommentsFrom_readOn hread', rfl, Or.inl rfl,
      fun after' hfollows => tokenize_append (lexStep_congr h hfollows)⟩

/-- A piece is passed, or is the first one with a clash. If it is no comment then, a byte of it is blanked. -/
theorem pieceRead_or_clash (quotes : Quotes) (h : lexStep b (taken ++ after) = (kind, after)) :
    (∃ quotes' text', PieceRead quotes kind (b :: taken) after quotes' text') ∨
      firstClash quotes (⟨kind, b :: taken⟩ :: pieces after) = some kind ∧
        (kind.isComment = false → ∃ i < (b :: taken).length,
          (withoutCommentsFrom 0 quotes (b :: taken ++ after))[i]? ≠ (b :: taken ++ after)[i]?) := by
  by_cases hblanked : kind.isComment = true ∧ quotes.shut = true
  · exact Or.inl ⟨quotes, _, .of_comment hblanked.1 hblanked.2 h⟩
  cases hread : readOn (kind = .lineComment) quotes (b :: taken) after with
  | some quotes' => exact Or.inl ⟨quotes', PieceRead.of_readOn hblanked h hread⟩
  | none =>
    refine Or.inr ⟨by rw [firstClash, if_neg hblanked, flatMap_text_pieces, hread], fun hcode => ?_⟩
    have hline : kind ≠ .lineComment := by
      rintro rfl
      cases hcode
    exact blanked_of_readOn_none (by simpa [hline] using hread)

/-- Up to the first clash, no token is lost. -/
theorem tokenize_withoutCommentsFrom (hclash : firstClash quotes (pieces source) = none) :
    tokenize (withoutCommentsFrom 0 quotes source) = tokenize source := by
  induction source using piecesInduction generalizing quotes with
  | nil => rfl
  | piece b taken after kind h ih =>
    rw [pieces_append h] at hclash
    obtain ⟨quotes', text', hread⟩ | ⟨hclash', -⟩ := pieceRead_or_clash quotes h
    · rw [hread.firstClash] at hclash
      rw [tokenize_append h, ← List.cons_append, hread.pushed,
        hread.tokens _ (follows_withoutCommentsFrom quotes' after), ih hclash]
    · rw [hclash'] at hclash
      cases hclash

/-- Every byte which is blanked is in a comment. -/
def BlankedInComments (source output : List UInt8) : Prop :=
  ∀ i : ℕ, output[i]? ≠ source[i]? → ∃ kind : Lexeme, (kinds source)[i]? = some kind ∧ kind.isComment = true

/-- Bytes are blanked in comments if and only if they are so in the first piece and behind it. -/
theorem blankedInComments_append {output : List UInt8} (h : lexStep b (taken ++ after) = (kind, after))
    (hlength : text'.length = (b :: taken).length) :
    BlankedInComments (b :: (taken ++ after)) (text' ++ output) ↔
      (text' = b :: taken ∨ kind.isComment = true) ∧ BlankedInComments after output := by
  have hkinds := kinds_append h
  have hleft {i : ℕ} (hi : i < (b :: taken).length) : (kinds (b :: (taken ++ after)))[i]? = some kind := by
    rw [hkinds, List.getElem?_append_left (by simpa using hi), List.getElem?_replicate, if_pos hi]
  have hright (i : ℕ) : (kinds (b :: (taken ++ after)))[(b :: taken).length + i]? = (kinds after)[i]? := by
    rw [hkinds, List.getElem?_append_right (by simp), List.length_replicate, Nat.add_sub_cancel_left]
  have hsource (i : ℕ) : (b :: (taken ++ after))[(b :: taken).length + i]? = after[i]? := by
    rw [← List.cons_append, List.getElem?_append_right (by omega), Nat.add_sub_cancel_left]
  have houtput (i : ℕ) : (text' ++ output)[(b :: taken).length + i]? = output[i]? := by
    rw [← hlength, List.getElem?_append_right (by omega), Nat.add_sub_cancel_left]
  constructor
  · intro hall
    refine ⟨or_iff_not_imp_left.mpr fun hne => ?_, fun i hne => ?_⟩
    · by_contra hcode
      refine hne (List.ext_getElem? fun i => ?_)
      by_cases hi : i < (b :: taken).length
      · by_contra hbyte
        have hat := hall i (by rwa [List.getElem?_append_left (hlength ▸ hi), ← List.cons_append,
          List.getElem?_append_left hi])
        obtain ⟨kind', hkind', hcomment⟩ := hat
        rw [hleft hi] at hkind'
        exact hcode (Option.some.inj hkind' ▸ hcomment)
      · rw [List.getElem?_eq_none (by omega), List.getElem?_eq_none (by omega)]
    · rw [← hright]
      exact hall _ (by rwa [houtput, hsource])
  · rintro ⟨hpiece, hall⟩ i hne
    by_cases hi : i < (b :: taken).length
    · rw [List.getElem?_append_left (hlength ▸ hi), ← List.cons_append, List.getElem?_append_left hi] at hne
      exact ⟨kind, hleft hi, hpiece.resolve_left fun htext => hne (by rw [htext])⟩
    · obtain ⟨j, rfl⟩ := Nat.exists_eq_add_of_le (Nat.le_of_not_lt hi)
      rw [houtput, hsource] at hne
      rw [hright]
      exact hall j hne

theorem blankedInComments_withoutCommentsFrom (hclash : firstClash quotes (pieces source) = none) :
    BlankedInComments source (withoutCommentsFrom 0 quotes source) := by
  induction source using piecesInduction generalizing quotes with
  | nil =>
    intro i hne
    exact absurd rfl hne
  | piece b taken after kind h ih =>
    rw [pieces_append h] at hclash
    obtain ⟨quotes', text', hread⟩ | ⟨hclash', -⟩ := pieceRead_or_clash quotes h
    · rw [hread.firstClash] at hclash
      have hpushed := hread.pushed
      rw [List.cons_append] at hpushed
      rw [hpushed, blankedInComments_append h hread.length]
      exact ⟨hread.kept, ih hclash⟩
    · rw [hclash'] at hclash
      cases hclash

/-- A clash outside of comments blanks code. -/
theorem not_blankedInComments (hclash : firstClash quotes (pieces source) = some kind)
    (hcode : kind.isComment = false) :
    ¬ BlankedInComments source (withoutCommentsFrom 0 quotes source) := by
  induction source using piecesInduction generalizing quotes with
  | nil => cases hclash
  | piece b taken after kind' h ih =>
    rw [pieces_append h] at hclash
    obtain ⟨quotes', text', hread⟩ | ⟨hclash', hblanked⟩ := pieceRead_or_clash quotes h
    · rw [hread.firstClash] at hclash
      have hpushed := hread.pushed
      rw [List.cons_append] at hpushed
      rw [hpushed, blankedInComments_append h hread.length]
      exact fun hall => ih hclash hall.2
    · obtain rfl : kind' = kind := Option.some.inj (hclash'.symm.trans hclash)
      obtain ⟨i, hi, hne⟩ := hblanked hcode
      intro hall
      obtain ⟨kind, hkind, hcomment⟩ := hall i hne
      rw [kinds_append h, List.getElem?_append_left (by simpa using hi), List.getElem?_replicate, if_pos hi] at hkind
      rw [Option.some.inj hkind, hcomment] at hcode
      cases hcode

end Pieces

end Voicetext.Xtask
