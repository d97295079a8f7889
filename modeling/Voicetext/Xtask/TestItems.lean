import Mathlib.Data.List.Infix
import Voicetext.Common.Utf8
import Voicetext.Xtask.Relexing
import Voicetext.Xtask.UseTrees

/-!
# Test items out of sources

Before a source is lexed, its test items are blanked by a search of its bytes for the attribute, for semicolons
and for braces, whether these are code or part of a comment or a literal. As long as what the search comes across
is code, the tokens which are left are those outside of the test items.
-/

namespace Voicetext.Xtask

open Byte Voicetext.Common.Text

/-! ## The search -/

/-- The attribute of a test item. -/
def marker : List UInt8 := asBytes "#[cfg(test)]"

/-- `str::find` of the attribute: what is in front of it, and from it on. -/
def findMarker : List UInt8 → Option (List UInt8 × List UInt8)
  | [] => none
  | b :: rest =>
    if marker.isPrefixOf (b :: rest) then some ([], b :: rest)
    else (findMarker rest).map fun (before, remainder) => (b :: before, remainder)

/-- The search for the brace which matches the first one, at a depth: what is behind it. -/
def matchBraces : ℕ → List UInt8 → Option (List UInt8)
  | _, [] => none
  | depth, b :: rest =>
    if b = leftBrace then matchBraces (depth + 1) rest
    else if b = rightBrace then if depth - 1 = 0 then some rest else matchBraces (depth - 1) rest
    else matchBraces depth rest

/-- What is behind the item at the front, unless the search breaks off there. -/
def behindItem (remainder : List UInt8) : Option (List UInt8) :=
  match remainder.findIdx? (· == semicolon), remainder.findIdx? (· == leftBrace) with
  | some semicolon, none => some (remainder.drop (semicolon + 1))
  | some semicolon, some opening =>
    if semicolon < opening then some (remainder.drop (semicolon + 1)) else matchBraces 0 (remainder.drop opening)
  | none, some opening => matchBraces 0 (remainder.drop opening)
  | none, none => none

/-- The loop of `without_cfg_test_modules` from the end of the last item on, for a number of passes. -/
def withoutCfgTestModulesLoop : ℕ → List UInt8 → List UInt8
  | 0, source => source
  | passes + 1, source =>
    match findMarker source with
    | none => source
    | some (before, remainder) =>
      match behindItem remainder with
      | none => source
      | some after =>
        before ++ ((remainder.take (remainder.length - after.length)).map blank ++
          withoutCfgTestModulesLoop passes after)

/-- `without_cfg_test_modules`. -/
def withoutCfgTestModules (source : List UInt8) : List UInt8 := withoutCfgTestModulesLoop source.length source

/-! ## Test items as tokens -/

/-- Whether the attribute of a test item stands here as code. -/
def startsTestItem : List Piece → Bool
  | [] => false
  | piece :: rest => piece.kind == .token .pound && marker.isPrefixOf (piece.text ++ rest.flatMap Piece.text)

/-- What is behind the brace token which closes as many as are open. -/
def behindBraces : ℕ → List Piece → Option (List Piece)
  | _, [] => none
  | depth, piece :: rest =>
    if piece.kind = .token .leftBrace then behindBraces (depth + 1) rest
    else if piece.kind = .token .rightBrace then if depth - 1 = 0 then some rest else behindBraces (depth - 1) rest
    else behindBraces depth rest

/-- What is behind a test item, which ends with its first semicolon token or, where a brace token comes first,
with the brace which matches it. -/
def behindTestItem : List Piece → Option (List Piece)
  | [] => none
  | piece :: rest =>
    if piece.kind = .token .semicolon then some rest
    else if piece.kind = .token .leftBrace then behindBraces 1 rest
    else behindTestItem rest

/-- How many of these pieces are the test item at their front. -/
def testItemLength (pieces : List Piece) : ℕ :=
  if startsTestItem pieces then (behindTestItem pieces).elim 0 fun after => pieces.length - after.length else 0

/-- The tokens outside of test items, the first pieces being inside of one. -/
def tokensOutside : ℕ → List Piece → List Token
  | _, [] => []
  | inside, piece :: rest =>
    let inside := max inside (testItemLength (piece :: rest))
    (if inside = 0 then piece.kind.token?.toList else []) ++ tokensOutside (inside - 1) rest

/-- The tokens of a source without those of its test items. -/
def tokensOutsideTestItems (source : List UInt8) : List Token := tokensOutside 0 (pieces source)

/-! ## What the search comes across -/

/-- Whether the attribute stands in these bytes, possibly beyond their end. -/
def markerWithin : List UInt8 → List UInt8 → Bool
  | [], _ => false
  | b :: text, following => marker.isPrefixOf (b :: (text ++ following)) || markerWithin text following

/-- Whether the search finds attributes and ends of items only where they are code, the first pieces being inside
of an item. An item has to end before the one around it does, and where the search breaks off no item is left. -/
def searchesCode : ℕ → List Piece → Bool
  | _, [] => true
  | inside + 1, piece :: rest => testItemLength (piece :: rest) ≤ inside + 1 && searchesCode inside rest
  | 0, piece :: rest =>
    if startsTestItem (piece :: rest) then
      match behindItem ((piece :: rest).flatMap Piece.text), behindTestItem (piece :: rest) with
      | some after, some after' =>
        after == after'.flatMap Piece.text && searchesCode (testItemLength (piece :: rest) - 1) rest
      | none, none => rest.tails.all fun rest => testItemLength rest == 0
      | _, _ => false
    else !markerWithin piece.text (rest.flatMap Piece.text) && searchesCode 0 rest

/-! ## What the search blanks -/

section Search

variable {source before remainder after text following : List UInt8} {passes depth : ℕ}

theorem findMarker_eq_some (h : findMarker source = some (before, remainder)) :
    source = before ++ remainder ∧ marker <+: remainder := by
  induction source generalizing before with
  | nil => cases h
  | cons b rest ih =>
    rw [findMarker] at h
    split at h
    next hmarker =>
      cases h
      exact ⟨rfl, List.isPrefixOf_iff_prefix.mp hmarker⟩
    next =>
      obtain ⟨⟨before', remainder'⟩, hrest, heq⟩ := Option.map_eq_some_iff.mp h
      cases heq
      obtain ⟨rfl, hmarker⟩ := ih hrest
      exact ⟨rfl, hmarker⟩

theorem findMarker_of_starts {b : UInt8} {rest : List UInt8} (h : marker.isPrefixOf (b :: rest) = true) :
    findMarker (b :: rest) = some ([], b :: rest) := if_pos h

theorem eq_pound_of_starts {b : UInt8} {rest : List UInt8} (h : marker.isPrefixOf (b :: rest) = true) : pound = b := by
  obtain ⟨tail, hmarker⟩ : ∃ tail, marker = pound :: tail := ⟨marker.tail, by decide +kernel⟩
  rw [hmarker, List.isPrefixOf_cons_cons, Bool.and_eq_true] at h
  exact eq_of_beq h.1

/-- Bytes without the attribute are in front of what the search finds. -/
theorem findMarker_append (h : markerWithin text following = false) :
    findMarker (text ++ following) =
      (findMarker following).map fun (before, remainder) => (text ++ before, remainder) := by
  induction text with
  | nil => simp
  | cons b text ih =>
    obtain ⟨hmarker, htext⟩ := Bool.or_eq_false_iff.mp h
    rw [List.cons_append, findMarker, hmarker, if_neg Bool.false_ne_true, ih htext, Option.map_map]
    rfl

theorem matchBraces_suffix {bytes : List UInt8} (h : matchBraces depth bytes = some after) :
    ∃ item last, bytes = item ++ last :: after ∧ last = rightBrace := by
  induction bytes generalizing depth with
  | nil => cases h
  | cons b rest ih =>
    have hrest {depth' : ℕ} (h' : matchBraces depth' rest = some after) :
        ∃ item last, b :: rest = item ++ last :: after ∧ last = rightBrace := by
      obtain ⟨item, last, rfl, hlast⟩ := ih h'
      exact ⟨b :: item, last, rfl, hlast⟩
    rw [matchBraces] at h
    split at h
    · exact hrest h
    split at h
    next hclose =>
      split at h
      · obtain rfl := Option.some.inj h
        exact ⟨[], b, rfl, hclose⟩
      · exact hrest h
    · exact hrest h

/-- An item ends with a semicolon or a brace. -/
theorem behindItem_suffix (h : behindItem remainder = some after) :
    ∃ item last, remainder = item ++ last :: after ∧ (last = semicolon ∨ last = rightBrace) := by
  have hsemicolon {i : ℕ} (hi : remainder.findIdx? (· == semicolon) = some i)
      (hdrop : some (remainder.drop (i + 1)) = some after) :
      ∃ item last, remainder = item ++ last :: after ∧ (last = semicolon ∨ last = rightBrace) := by
    obtain ⟨hlt, hlast, -⟩ := List.findIdx?_eq_some_iff_getElem.mp hi
    refine ⟨remainder.take i, remainder[i], ?_, Or.inl (by simpa using hlast)⟩
    rw [← Option.some.inj hdrop, List.getElem_cons_drop, List.take_append_drop]
  have hbrace {i : ℕ} (hmatch : matchBraces 0 (remainder.drop i) = some after) :
      ∃ item last, remainder = item ++ last :: after ∧ (last = semicolon ∨ last = rightBrace) := by
    obtain ⟨item, last, hdrop, hlast⟩ := matchBraces_suffix hmatch
    refine ⟨remainder.take i ++ item, last, ?_, Or.inr hlast⟩
    rw [List.append_assoc, ← hdrop, List.take_append_drop]
  unfold behindItem at h
  split at h
  next hs _ => exact hsemicolon hs h
  next hs _ =>
    split at h
    · exact hsemicolon hs h
    · exact hbrace h
  next => exact hbrace h
  next => cases h

theorem length_lt_of_item (h : findMarker source = some (before, remainder)) (hend : behindItem remainder = some after) :
    after.length < source.length := by
  obtain ⟨item, last, rfl, -⟩ := behindItem_suffix hend
  rw [(findMarker_eq_some h).1]
  simp
  omega

theorem withoutCfgTestModulesLoop_eq (hle : source.length ≤ passes) :
    withoutCfgTestModulesLoop passes source = withoutCfgTestModules source := by
  induction hlength : source.length using Nat.strong_induction_on generalizing source passes with
  | _ length ih =>
    subst hlength
    cases source with
    | nil => cases passes <;> rfl
    | cons b rest =>
      cases passes with
      | zero => simp at hle
      | succ passes =>
        rw [withoutCfgTestModules, List.length_cons, withoutCfgTestModulesLoop, withoutCfgTestModulesLoop]
        split
        · rfl
        next before remainder hfind =>
          split
          · rfl
          next after hend =>
            have hshorter := length_lt_of_item hfind hend
            rw [ih _ hshorter (by simp at hle hshorter; omega) rfl,
              ih _ hshorter (by simpa using Nat.le_of_lt_succ hshorter) rfl]

/-- Without an attribute a source is as it is. -/
theorem withoutCfgTestModules_of_none (h : findMarker source = none) : withoutCfgTestModules source = source := by
  cases source with
  | nil => rfl
  | cons b rest => rw [withoutCfgTestModules, List.length_cons, withoutCfgTestModulesLoop, h]

/-- Where the search breaks off, the rest of a source is as it is. -/
theorem withoutCfgTestModules_of_break (h : findMarker source = some (before, remainder))
    (hend : behindItem remainder = none) : withoutCfgTestModules source = source := by
  cases source with
  | nil => rfl
  | cons b rest => simp only [withoutCfgTestModules, List.length_cons, withoutCfgTestModulesLoop, h, hend]

theorem withoutCfgTestModules_of_item (h : findMarker source = some (before, remainder))
    (hend : behindItem remainder = some after) :
    ∃ item, remainder = item ++ after ∧
      withoutCfgTestModules source = before ++ (item.map blank ++ withoutCfgTestModules after) := by
  obtain ⟨item, last, rfl, -⟩ := behindItem_suffix hend
  refine ⟨item ++ [last], by simp, ?_⟩
  have hshorter := length_lt_of_item h hend
  cases source with
  | nil => cases h
  | cons b rest =>
    have htake : (item ++ last :: after).take ((item ++ last :: after).length - after.length) = item ++ [last] := by
      have hlength : (item ++ last :: after).length - after.length = (item ++ [last]).length := by
        simp
        omega
      have happend : item ++ last :: after = (item ++ [last]) ++ after := by simp
      rw [hlength, happend, List.take_left]
    simp only [withoutCfgTestModules, List.length_cons, withoutCfgTestModulesLoop, h, hend, htake]
    rw [withoutCfgTestModulesLoop_eq (Nat.le_of_lt_succ hshorter)]
    rfl

/-- Bytes without the attribute are kept. -/
theorem withoutCfgTestModules_append (h : markerWithin text following = false) :
    withoutCfgTestModules (text ++ following) = text ++ withoutCfgTestModules following := by
  have hfind := findMarker_append h
  cases hfollowing : findMarker following with
  | none =>
    rw [hfollowing] at hfind
    rw [withoutCfgTestModules_of_none hfind, withoutCfgTestModules_of_none hfollowing]
  | some found =>
    obtain ⟨before, remainder⟩ := found
    rw [hfollowing] at hfind
    cases hend : behindItem remainder with
    | none => rw [withoutCfgTestModules_of_break hfind hend, withoutCfgTestModules_of_break hfollowing hend]
    | some after =>
      obtain ⟨item, hitem, heq⟩ := withoutCfgTestModules_of_item hfind hend
      obtain ⟨item', hitem', heq'⟩ := withoutCfgTestModules_of_item hfollowing hend
      rw [heq, heq', List.append_cancel_right (hitem.symm.trans hitem'), List.append_assoc]

end Search

/-! ## Piece by piece -/

section Pieces

variable {source : List UInt8} {rest after : List Piece} {inside : ℕ}

/-- The pieces behind some of a source are those of the bytes behind. -/
theorem eq_pieces_of_suffix (h : rest <:+ pieces source) : rest = pieces (rest.flatMap Piece.text) := by
  induction source using piecesInduction with
  | nil =>
    rw [List.suffix_nil.mp h]
    rfl
  | piece b taken after kind hstep ih =>
    rw [pieces_append hstep, List.suffix_cons_iff] at h
    obtain hall | h := h
    · rw [hall, ← pieces_append hstep, flatMap_text_pieces]
    · exact ih h

theorem behindBraces_suffix {depth : ℕ} {ps : List Piece} (h : behindBraces depth ps = some after) : after <:+ ps := by
  induction ps generalizing depth with
  | nil => cases h
  | cons piece rest ih =>
    rw [behindBraces] at h
    split at h
    · exact (ih h).trans (List.suffix_cons piece rest)
    split at h
    · split at h
      · rw [← Option.some.inj h]
        exact List.suffix_cons piece rest
      · exact (ih h).trans (List.suffix_cons piece rest)
    · exact (ih h).trans (List.suffix_cons piece rest)

theorem behindTestItem_suffix {piece : Piece} (h : behindTestItem (piece :: rest) = some after) : after <:+ rest := by
  induction rest generalizing piece with
  | nil =>
    rw [behindTestItem] at h
    split at h
    · cases h
      exact List.suffix_rfl
    split at h <;> cases h
  | cons next rest ih =>
    rw [behindTestItem] at h
    split at h
    · cases h
      exact List.suffix_rfl
    split at h
    · exact behindBraces_suffix h
    · exact (ih h).trans (List.suffix_cons next rest)

/-- Pieces inside of an item are gone with it, when the items which start in it end in it. -/
theorem tokensOutside_of_searchesCode {ps : List Piece} (h : searchesCode inside ps = true) :
    tokensOutside inside ps = tokensOutside 0 (ps.drop inside) ∧ searchesCode 0 (ps.drop inside) = true := by
  induction ps generalizing inside with
  | nil => cases inside <;> exact ⟨rfl, rfl⟩
  | cons piece rest ih =>
    cases inside with
    | zero => exact ⟨rfl, h⟩
    | succ inside =>
      rw [searchesCode, Bool.and_eq_true, decide_eq_true_eq] at h
      obtain ⟨hends, hrest⟩ := h
      rw [tokensOutside, max_eq_left hends]
      exact ih hrest

/-- Without items, all tokens are outside. -/
theorem tokensOutside_of_forall {ps : List Piece} (h : ∀ rest, rest <:+ ps → testItemLength rest = 0) :
    tokensOutside 0 ps = ps.filterMap fun piece => piece.kind.token? := by
  induction ps with
  | nil => rfl
  | cons piece rest ih =>
    have hrest := ih fun rest' hrest => h rest' (hrest.trans (List.suffix_cons piece rest))
    rw [tokensOutside, h _ List.suffix_rfl]
    cases hkind : piece.kind.token? <;> simp [hkind, hrest]

theorem tokenize_eq_filterMap (source : List UInt8) :
    tokenize source = (pieces source).filterMap fun piece => piece.kind.token? := by
  induction source using piecesInduction with
  | nil => rfl
  | piece b taken after kind h ih =>
    rw [pieces_append h, tokenize_append h, ih]
    cases hkind : kind.token? <;> simp [hkind]

theorem length_behindTestItem_lt {piece : Piece} (h : behindTestItem (piece :: rest) = some after) :
    after.length < (piece :: rest).length := Nat.lt_succ_of_le (behindTestItem_suffix h).length_le

/-- What is left of a source lexes to the tokens outside of its test items, and its front is read the same. -/
structure LeftOutside (source : List UInt8) : Prop where
  tokens : tokenize (withoutCfgTestModules source) = tokensOutsideTestItems source
  follows : Follows source (withoutCfgTestModules source)

section Step

variable {b : UInt8} {taken after : List UInt8} {kind : Lexeme}

theorem testItemLength_of_not_starts {ps : List Piece} (h : startsTestItem ps = false) : testItemLength ps = 0 := by
  rw [testItemLength, h]
  rfl

/-- A piece in which the search finds nothing. -/
theorem LeftOutside.of_piece (hstep : lexStep b (taken ++ after) = (kind, after))
    (hstart : startsTestItem (pieces (b :: (taken ++ after))) = false) (hmarker : markerWithin (b :: taken) after = false)
    (hafter : LeftOutside after) : LeftOutside (b :: (taken ++ after)) := by
  have hkept : withoutCfgTestModules (b :: (taken ++ after)) = b :: (taken ++ withoutCfgTestModules after) :=
    withoutCfgTestModules_append hmarker
  have hlength := testItemLength_of_not_starts hstart
  constructor
  · rw [hkept, tokenize_append (lexStep_congr hstep hafter.follows), hafter.tokens, tokensOutsideTestItems,
      tokensOutsideTestItems, pieces_append hstep, tokensOutside, ← pieces_append hstep, hlength]
    rfl
  · rw [hkept]
    refine ⟨.cons (.inl rfl) (List.rel_append ?_ hafter.follows.blanked), fun c hc _ => hc⟩
    exact List.forall₂_same.mpr fun c _ => Or.inl rfl

/-- An item which ends for the search where it ends. -/
theorem LeftOutside.of_item {source after : List UInt8} (hfind : findMarker source = some ([], source))
    (hend : behindItem source = some after) (hhead : ∀ c ∈ source.head?, isIdentStart c = false)
    (houtside : tokensOutsideTestItems source = tokensOutsideTestItems after) (hafter : LeftOutside after) :
    LeftOutside source := by
  obtain ⟨item, hitem, hleft⟩ := withoutCfgTestModules_of_item hfind hend
  rw [List.nil_append] at hleft
  constructor
  · rw [hleft, tokenize_blank_append, hafter.tokens, houtside]
  · refine ⟨?_, fun c hc hident => absurd hident (by simp [hhead c hc])⟩
    rw [hleft]
    nth_rewrite 1 [hitem]
    refine List.rel_append ?_ hafter.follows.blanked
    exact List.forall₂_map_right_iff.mpr (List.forall₂_same.mpr fun c _ => blanked_blank c)

/-- The tokens behind an item whose inner items end in it. -/
theorem tokensOutside_of_item {piece : Piece} {rest after : List Piece} (hstart : startsTestItem (piece :: rest) = true)
    (hend : behindTestItem (piece :: rest) = some after)
    (hinner : searchesCode (testItemLength (piece :: rest) - 1) rest = true) :
    tokensOutside 0 (piece :: rest) = tokensOutside 0 after ∧ searchesCode 0 after = true := by
  have hsuffix := behindTestItem_suffix hend
  have hlength : testItemLength (piece :: rest) = (rest.length - after.length) + 1 := by
    rw [testItemLength, if_pos hstart, hend, Option.elim_some, List.length_cons]
    have hle := hsuffix.length_le
    omega
  obtain ⟨htokens, hcode⟩ := tokensOutside_of_searchesCode hinner
  rw [hlength, Nat.add_sub_cancel, ← List.suffix_iff_eq_drop.mp hsuffix] at htokens hcode
  refine ⟨?_, hcode⟩
  rw [tokensOutside, hlength, max_eq_right (Nat.zero_le _)]
  exact htokens

/-- The search breaks off in front of no item. -/
theorem LeftOutside.of_break (hstep : lexStep b (taken ++ after) = (kind, after))
    (hleft : withoutCfgTestModules (b :: (taken ++ after)) = b :: (taken ++ after))
    (hend : behindTestItem (⟨kind, b :: taken⟩ :: pieces after) = none)
    (hrest : (pieces after).tails.all (fun rest => testItemLength rest == 0) = true) :
    LeftOutside (b :: (taken ++ after)) := by
  constructor
  · rw [hleft, tokenize_eq_filterMap, tokensOutsideTestItems, tokensOutside_of_forall]
    intro rest hsuffix
    rw [pieces_append hstep, List.suffix_cons_iff] at hsuffix
    obtain rfl | hsuffix := hsuffix
    · simp [testItemLength, hend]
    · simpa using List.all_eq_true.mp hrest rest ((List.mem_tails _ _).mpr hsuffix)
  · rw [hleft]
    exact ⟨List.forall₂_same.mpr fun c _ => Or.inl rfl, fun c hc _ => hc⟩

end Step

/-- Where the search finds code only, what is left lexes to the tokens outside of test items. -/
theorem leftOutside_of_searchesCode (h : searchesCode 0 (pieces source) = true) : LeftOutside source := by
  induction hlength : source.length using Nat.strong_induction_on generalizing source with
  | _ length ih =>
    subst hlength
    cases source with
    | nil => exact ⟨rfl, .nil⟩
    | cons b rest =>
      obtain ⟨taken, htaken⟩ := lexStep_suffix b rest
      have hstep : lexStep b (taken ++ (lexStep b rest).2) = ((lexStep b rest).1, (lexStep b rest).2) := by rw [htaken]
      have hshorter := Nat.lt_succ_of_le (lexStep_length_le b rest)
      generalize (lexStep b rest).1 = kind at hstep
      generalize (lexStep b rest).2 = after at htaken hstep hshorter
      obtain rfl := htaken
      have hpieces := pieces_append hstep
      have htexts : (⟨kind, b :: taken⟩ :: pieces after).flatMap Piece.text = b :: (taken ++ after) := by
        rw [← hpieces, flatMap_text_pieces]
      rw [hpieces, searchesCode] at h
      split at h
      next hstart =>
        obtain ⟨hkind, hmarker⟩ : kind = .token .pound ∧ marker.isPrefixOf (b :: (taken ++ after)) = true := by
          simpa [startsTestItem, flatMap_text_pieces] using hstart
        have hfind := findMarker_of_starts hmarker
        rw [htexts] at h
        split at h
        next after₁ after₁' hend hend' =>
          obtain ⟨hafter, hinner⟩ : after₁ = after₁'.flatMap Piece.text ∧ _ := by simpa using h
          obtain ⟨htokens, hcode⟩ := tokensOutside_of_item hstart hend' hinner
          have hsuffix : after₁' <:+ pieces (b :: (taken ++ after)) :=
            hpieces ▸ (behindTestItem_suffix hend').trans (List.suffix_cons _ _)
          have hafter' : after₁' = pieces after₁ := hafter ▸ eq_pieces_of_suffix hsuffix
          refine .of_item hfind hend ?_ ?_ (ih _ (length_lt_of_item hfind hend) (hafter' ▸ hcode) rfl)
          · simp [← eq_pound_of_starts hmarker, isIdentStart, isAlphabetic, pound, underscore]
          · rw [tokensOutsideTestItems, tokensOutsideTestItems, hpieces, htokens, hafter']
        next hend hend' => exact .of_break hstep (withoutCfgTestModules_of_break hfind hend) hend' h
        next => cases h
      next hstart =>
        obtain ⟨hmarker, hrest⟩ := by simpa using h
        rw [flatMap_text_pieces] at hmarker
        exact .of_piece hstep (by simpa [hpieces] using hstart) hmarker (ih _ hshorter hrest rfl)

end Pieces

end Voicetext.Xtask
