import Voicetext.Common.MaximalRuns
import Voicetext.Xtask.CommentStripping

/-!
# The purity rules

The rules on domain and application sources look for identifiers in the source without its comments. Comments
are blanked character by character, as their marks are ASCII, so what is left is a text, and an identifier
outside of the blanked comments is one of that text.
-/

namespace Voicetext.Xtask

open Byte Voicetext.Common Voicetext.Common.Text

/-! ## What is left are characters -/

/-- Characters, as they are or blanked byte by byte. -/
inductive CharsBlanked : List Char → List Char → Prop
  | nil : CharsBlanked [] []
  | keep (c : Char) {cs ds : List Char} : CharsBlanked cs ds → CharsBlanked (c :: cs) (c :: ds)
  | blank (c : Char) {cs ds : List Char} : CharsBlanked cs ds →
      CharsBlanked (c :: cs) (List.replicate c.utf8Size ' ' ++ ds)

section CharsBlanked

variable {cs ds cs' ds' : List Char} {blockDepth : ℕ} {quotes : Quotes}

theorem CharsBlanked.append (h : CharsBlanked cs ds) (h' : CharsBlanked cs' ds') :
    CharsBlanked (cs ++ cs') (ds ++ ds') := by
  induction h with
  | nil => exact h'
  | keep c _ ih => exact .keep c ih
  | blank c _ ih =>
    rw [List.append_assoc]
    exact .blank c ih

theorem CharsBlanked.append_inv (h : CharsBlanked (cs ++ cs') ds) :
    ∃ front back, ds = front ++ back ∧ CharsBlanked cs front ∧ CharsBlanked cs' back := by
  induction cs generalizing ds with
  | nil => exact ⟨[], ds, rfl, .nil, h⟩
  | cons c cs ih =>
    cases h with
    | keep _ h =>
      obtain ⟨front, back, rfl, hfront, hback⟩ := ih h
      exact ⟨c :: front, back, rfl, .keep c hfront, hback⟩
    | blank _ h =>
      obtain ⟨front, back, rfl, hfront, hback⟩ := ih h
      exact ⟨_, back, (List.append_assoc ..).symm, .blank c hfront, hback⟩

theorem CharsBlanked.length_utf8 (h : CharsBlanked cs ds) : (utf8 ds).length = (utf8 cs).length := by
  induction h with
  | nil => rfl
  | keep c _ ih => simp [ih]
  | blank c _ ih => simp [ih, utf8_spaces]

/-- Blanking every character. -/
theorem CharsBlanked.of_spaces (cs : List Char) :
    CharsBlanked cs (List.replicate (utf8 cs).length ' ') := by
  induction cs with
  | nil => exact .nil
  | cons c cs ih =>
    rw [utf8_cons, List.length_append, String.length_utf8EncodeChar, List.replicate_add]
    exact .blank c ih

/-- A character is read off the bytes by an ASCII byte at the front. -/
theorem eq_cons_of_head?_utf8 {b : UInt8} (hb : b < 128) (h : (utf8 cs).head? = some b) :
    ∃ c rest, cs = c :: rest ∧ c.toNat < 128 ∧ UInt8.ofNat c.toNat = b ∧ (utf8 cs).tail = utf8 rest := by
  cases cs with
  | nil => cases h
  | cons c rest =>
    by_cases hc : c.toNat < 128
    · rw [utf8_cons, utf8EncodeChar_of_ascii hc] at h ⊢
      exact ⟨c, rest, rfl, hc, Option.some.inj h, rfl⟩
    · obtain ⟨first, bytes, hbytes⟩ := List.exists_cons_of_ne_nil (String.utf8EncodeChar_ne_nil (c := c))
      have hfirst := le_of_mem_utf8EncodeChar (Nat.le_of_not_lt hc) (hbytes ▸ List.mem_cons_self)
      rw [utf8_cons, hbytes] at h
      obtain rfl := Option.some.inj h
      exact absurd hfirst (UInt8.not_le.mpr hb)

/-- Bytes which start no comment are kept. -/
theorem withoutCommentsFrom_keep_all (quotes : Quotes) {bytes : List UInt8} (hbytes : ∀ b ∈ bytes, b ≠ slash) (rest : List UInt8) :
    ∃ quotes', withoutCommentsFrom 0 quotes (bytes ++ rest) = bytes ++ withoutCommentsFrom 0 quotes' rest := by
  induction bytes generalizing quotes with
  | nil => exact ⟨quotes, rfl⟩
  | cons b bytes ih =>
    have hb := hbytes b List.mem_cons_self
    obtain ⟨quotes', hrest⟩ : ∃ quotes', withoutCommentsFrom 0 (quotes.after b) (bytes ++ rest) =
        bytes ++ withoutCommentsFrom 0 quotes' rest := ih _ fun c hc => hbytes c (List.mem_cons_of_mem b hc)
    refine ⟨quotes', ?_⟩
    rw [List.cons_append, withoutCommentsFrom_keep (fun h => hb h.2.1) fun h => hb h.2.1, hrest]
    rfl

/-- Bytes which neither open nor close a block comment are blanked in it. -/
theorem withoutCommentsFrom_blank_all {bytes : List UInt8} (hbytes : ∀ b ∈ bytes, b ≠ slash ∧ b ≠ Byte.star)
    (rest : List UInt8) :
    withoutCommentsFrom (blockDepth + 1) quotes (bytes ++ rest) =
      bytes.map blank ++ withoutCommentsFrom (blockDepth + 1) quotes rest := by
  induction bytes with
  | nil => rfl
  | cons b bytes ih =>
    obtain ⟨hslash, hstar⟩ := hbytes b List.mem_cons_self
    have hstep : scanStep (blockDepth + 1) quotes b (bytes ++ rest) =
        ([blank b], blockDepth + 1, quotes, bytes ++ rest) := by
      simp [scanStep, hslash, hstar]
    rw [List.cons_append, withoutCommentsFrom_cons hstep, ih fun c hc => hbytes c (List.mem_cons_of_mem b hc)]
    rfl

/-- A line of bytes is a line of characters. -/
theorem exists_line (cs : List Char) : ∃ line after, cs = line ++ after ∧
    (utf8 cs).takeWhile (· != newline) = utf8 line ∧ skipLine (utf8 cs) = utf8 after := by
  induction cs with
  | nil => exact ⟨[], [], rfl, rfl, rfl⟩
  | cons c cs ih =>
    by_cases hc : c = '\n'
    · exact ⟨[], c :: cs, rfl, by rw [hc]; rfl, by rw [hc]; rfl⟩
    · obtain ⟨line, after, hcs, htake, hdrop⟩ := ih
      have hall : ∀ b ∈ String.utf8EncodeChar c, (b != newline) = true := fun b hb => by
        simpa using ne_newline_of_mem_utf8EncodeChar hc hb
      refine ⟨c :: line, after, congrArg (c :: ·) hcs, ?_, ?_⟩
      · rw [utf8_cons, List.takeWhile_append_of_pos hall, htake, utf8_cons]
      · rw [utf8_cons, skipLine, List.dropWhile_append_of_pos hall]
        exact hdrop

/-- Comments are blanked character by character. -/
theorem charsBlanked_withoutCommentsFrom (blockDepth : ℕ) (quotes : Quotes) (cs : List Char) :
    ∃ ds, CharsBlanked cs ds ∧ withoutCommentsFrom blockDepth quotes (utf8 cs) = utf8 ds := by
  induction hlength : cs.length using Nat.strong_induction_on generalizing cs blockDepth quotes with
  | _ length ih =>
    subst hlength
    cases cs with
    | nil => exact ⟨[], .nil, rfl⟩
    | cons c rest =>
      have hrest := fun blockDepth quotes => ih rest.length (by simp) blockDepth quotes rest rfl
      obtain ⟨front, hfront, hchar⟩ := exists_blank_char c
      have hblank (cs ds : List Char) (h : CharsBlanked cs ds) : CharsBlanked (c :: cs) (front ++ ds) := by
        obtain rfl | rfl := hchar
        · exact .keep c h
        · exact .blank c h
      by_cases hc : c.toNat < 128
      · have hbyte := utf8EncodeChar_of_ascii hc
        -- two bytes of a mark are two characters
        have hpair {b : UInt8} (hb : b < 128) (hhead : (utf8 rest).head? = some b) (blockDepth' : ℕ)
            (hstep : scanStep blockDepth quotes (UInt8.ofNat c.toNat) (utf8 rest) =
              ([space, space], blockDepth', quotes, (utf8 rest).tail)) :
            ∃ ds, CharsBlanked (c :: rest) ds ∧ withoutCommentsFrom blockDepth quotes (utf8 (c :: rest)) = utf8 ds := by
          obtain ⟨d, rest', rfl, hd, -, htail⟩ := eq_cons_of_head?_utf8 hb hhead
          obtain ⟨ds, hds, hpushed⟩ := ih rest'.length (by simp only [List.length_cons]; omega) blockDepth' quotes rest' rfl
          refine ⟨_, .blank c (.blank d hds), ?_⟩
          have hsize {e : Char} (he : e.toNat < 128) : e.utf8Size = 1 := by
            rw [← String.length_utf8EncodeChar, utf8EncodeChar_of_ascii he]
            rfl
          have hspaces : utf8 (List.replicate 1 ' ' ++ (List.replicate 1 ' ' ++ ds)) = [space, space] ++ utf8 ds := rfl
          rw [utf8_cons, hbyte, List.singleton_append, withoutCommentsFrom_cons hstep, htail, hpushed, hsize hc,
            hsize hd, hspaces]
        cases blockDepth with
        | zero =>
          by_cases hblock : quotes.shut ∧ UInt8.ofNat c.toNat = slash ∧ (utf8 rest).head? = some Byte.star
          · exact hpair (by decide) hblock.2.2 1 (by rw [scanStep, if_neg (by simp), if_pos hblock])
          by_cases hline : quotes.shut ∧ UInt8.ofNat c.toNat = slash ∧ (utf8 rest).head? = some slash
          · obtain ⟨line, after, hcs, htake, hskip⟩ := exists_line (c :: rest)
            have hstep : scanStep 0 quotes (UInt8.ofNat c.toNat) (utf8 rest) =
                (List.replicate (utf8 line).length space, 0, quotes, utf8 after) := by
              rw [utf8_cons, hbyte, List.singleton_append] at htake hskip
              rw [scanStep, if_neg (by simp), if_neg hblock, if_pos hline, htake, hskip, List.map_const']
            have hshorter : after.length < (c :: rest).length := by
              have hlength := congrArg List.length hcs
              have hne : line ≠ [] := by
                rintro rfl
                rw [utf8_cons, hbyte, hline.2.1] at htake
                cases htake
              have hpos := List.length_pos_iff.mpr hne
              rw [List.length_append] at hlength
              omega
            obtain ⟨ds, hds, hpushed⟩ := ih after.length hshorter 0 quotes after rfl
            refine ⟨List.replicate (utf8 line).length ' ' ++ ds, ?_, ?_⟩
            · rw [hcs]
              exact (CharsBlanked.of_spaces line).append hds
            · rw [utf8_cons, hbyte, List.singleton_append, withoutCommentsFrom_cons hstep, hpushed, utf8_append,
                utf8_spaces]
          · obtain ⟨ds, hds, hpushed⟩ := hrest 0 (quotes.after (UInt8.ofNat c.toNat))
            refine ⟨c :: ds, .keep c hds, ?_⟩
            rw [utf8_cons, hbyte, List.singleton_append, withoutCommentsFrom_keep hblock hline, hpushed, utf8_cons, hbyte]
            rfl
        | succ blockDepth =>
          by_cases hopen : UInt8.ofNat c.toNat = slash ∧ (utf8 rest).head? = some Byte.star
          · exact hpair (by decide) hopen.2 (blockDepth + 2) (by rw [scanStep, if_pos (by simp), if_pos hopen])
          by_cases hclose : UInt8.ofNat c.toNat = Byte.star ∧ (utf8 rest).head? = some slash
          · exact hpair (by decide) hclose.2 blockDepth
              (by rw [scanStep, if_pos (by simp), if_neg hopen, if_pos hclose]; rfl)
          · obtain ⟨ds, hds, hpushed⟩ := hrest (blockDepth + 1) quotes
            have hstep : scanStep (blockDepth + 1) quotes (UInt8.ofNat c.toNat) (utf8 rest) =
                ([blank (UInt8.ofNat c.toNat)], blockDepth + 1, quotes, utf8 rest) := by
              rw [scanStep, if_pos (by simp), if_neg hopen, if_neg hclose]
            refine ⟨front ++ ds, hblank rest ds hds, ?_⟩
            rw [utf8_cons, hbyte, List.singleton_append, withoutCommentsFrom_cons hstep, hpushed, utf8_append, hfront,
              hbyte]
            rfl
      · have hwide : ∀ b ∈ String.utf8EncodeChar c, 128 ≤ b := fun b hb =>
          le_of_mem_utf8EncodeChar (Nat.le_of_not_lt hc) hb
        rw [utf8_cons]
        cases blockDepth with
        | zero =>
          have hslash : ∀ b ∈ String.utf8EncodeChar c, b ≠ slash := by
            rintro b hb rfl
            exact absurd (hwide slash hb) (by decide)
          obtain ⟨quotes', hkept⟩ := withoutCommentsFrom_keep_all quotes hslash (utf8 rest)
          obtain ⟨ds, hds, hpushed⟩ := hrest 0 quotes'
          exact ⟨c :: ds, .keep c hds, by rw [hkept, hpushed, utf8_cons]⟩
        | succ blockDepth =>
          obtain ⟨ds, hds, hpushed⟩ := hrest (blockDepth + 1) quotes
          refine ⟨front ++ ds, hblank rest ds hds, ?_⟩
          rw [withoutCommentsFrom_blank_all, hpushed, utf8_append, hfront]
          intro b hb
          constructor <;> rintro rfl
          · exact absurd (hwide slash hb) (by decide)
          · exact absurd (hwide Byte.star hb) (by decide)

end CharsBlanked

/-! ## The rules -/

/-- `without_comments` on a text. Without a value, the expectation that comment stripping preserves UTF-8 would
panic. -/
def withoutCommentsText (source : String) : Option String := fromUtf8 (withoutComments (asBytes source))

/-- `char::is_alphanumeric`, from its table of the characters which are not ASCII. -/
def isAlphanumeric (unicode : Char → Bool) (c : Char) : Bool := if c.toNat < 128 then c.isAlphanum else unicode c

/-- A character of an identifier. -/
def inIdentifier (unicode : Char → Bool) (c : Char) : Bool := isAlphanumeric unicode c || c == '_'

/-- The identifiers the rules see in the code. -/
def identifiers (unicode : Char → Bool) (code : String) : List String :=
  (maximalRuns (inIdentifier unicode) code.toList).map String.ofList

def isDomain (boundary : String) : Bool := ".domain".toList.isSuffixOf boundary.toList

def isApplication (boundary : String) : Bool := ".application".toList.isSuffixOf boundary.toList

/-- `str::contains`, on characters. -/
def containsText (text : List Char) (part : String) : Bool := text.tails.any part.toList.isPrefixOf

/-- The crates no rule allows. -/
def forbiddenCrates : List String := ["tokio", "axum", "sqlx", "reqwest"]

def forbiddenError (file boundary forbidden : String) : String := s!"{file}: `{forbidden}` is forbidden in {boundary}"

/-- `enforce_directional_rules`, from the errors of `reject_unsupported_constructs` on. -/
def enforceDirectionalRules (unicode : Char → Bool) (unsupported : List String) (file boundary source : String) :
    Option (List String) :=
  if !isDomain boundary && !isApplication boundary then some unsupported
  else (withoutCommentsText source).map fun code =>
    let compact := code.toList.filter fun c => !isWhitespace c
    let identifiers := identifiers unicode code
    unsupported ++
    (if isDomain boundary && containsText compact "application::" then
      [s!"{file}: domain cannot import application"] else []) ++
    (forbiddenCrates.filter identifiers.contains).map (forbiddenError file boundary) ++
    (if isApplication boundary then
      (["serde", "serde_json"].filter identifiers.contains).map fun forbidden =>
        s!"{file}: persistence serializer `{forbidden}` is forbidden in {boundary}" else []) ++
    (if containsText compact "std::env" then [forbiddenError file boundary "std::env"] else []) ++
    (if identifiers.contains "SystemTime" then [forbiddenError file boundary "SystemTime"] else []) ++
    (["deepgram", "elevenlabs", "pipecat"].filter fun provider =>
      identifiers.any fun identifier => containsText (identifier.toList.map Char.toLower) provider).map fun provider =>
        s!"{file}: provider name `{provider}` is forbidden in {boundary}"

/-! ## What the rules see -/

/-- A text is an identifier of a source, outside of its comments. -/
def IdentifierOutsideComments (unicode : Char → Bool) (source identifier : String) : Prop :=
  ∃ before after, source.toList = before ++ (identifier.toList ++ after) ∧ identifier.toList ≠ [] ∧
    (∀ c ∈ identifier.toList, inIdentifier unicode c = true) ∧
    (∀ c ∈ before.getLast?, inIdentifier unicode c = false) ∧ (∀ c ∈ after.head?, inIdentifier unicode c = false) ∧
    ∀ i < (asBytes identifier).length, ∀ kind : Lexeme,
      (kinds (asBytes source))[(utf8 before).length + i]? = some kind → kind.isComment = false

/-- The purity rules read a source as they should: only comments are blanked, no token is lost, and every
identifier outside of comments is seen. -/
structure CommentsStripped (unicode : Char → Bool) (source : String) : Prop where
  length : (withoutComments (asBytes source)).length = (asBytes source).length
  newlines : ∀ i : ℕ, (withoutComments (asBytes source))[i]? = some newline ↔ (asBytes source)[i]? = some newline
  tokens : tokenize (withoutComments (asBytes source)) = tokenize (asBytes source)
  comments : BlankedInComments (asBytes source) (withoutComments (asBytes source))
  seen : ∃ code, withoutCommentsText source = some code ∧
    ∀ identifier, IdentifierOutsideComments unicode source identifier → identifier ∈ identifiers unicode code
  forbidden : ∀ unsupported file boundary, (isDomain boundary || isApplication boundary) = true →
    ∃ errors, enforceDirectionalRules unicode unsupported file boundary source = some errors ∧
      ∀ name ∈ forbiddenCrates, IdentifierOutsideComments unicode source name →
        forbiddenError file boundary name ∈ errors

section Seen

variable {unicode : Char → Bool} {source code : String}

/-- What is left of the characters of a source. -/
theorem withoutCommentsText_eq_some (source : String) : ∃ code, withoutCommentsText source = some code ∧
    CharsBlanked source.toList code.toList := by
  obtain ⟨cs, hcs, hpushed⟩ := charsBlanked_withoutCommentsFrom 0 .start source.toList
  refine ⟨String.ofList cs, fromUtf8_eq_some.mpr ?_, by rwa [String.toList_ofList]⟩
  rw [asBytes_eq_utf8, String.toList_ofList, ← hpushed, ← asBytes_eq_utf8]
  rfl

theorem not_inIdentifier_space : inIdentifier unicode ' ' = false := rfl

/-- A last character outside of identifiers stays outside of them. -/
theorem CharsBlanked.getLast? {cs ds : List Char} (h : CharsBlanked cs ds)
    (hlast : ∀ c ∈ cs.getLast?, inIdentifier unicode c = false) : ∀ c ∈ ds.getLast?, inIdentifier unicode c = false := by
  obtain rfl | ⟨init, c, rfl⟩ := cs.eq_nil_or_concat
  · cases h
    simp
  · rw [List.concat_eq_append] at h hlast
    obtain ⟨front, back, rfl, -, hback⟩ := h.append_inv
    cases hback with
    | keep _ hnil =>
      cases hnil
      simpa using hlast
    | blank _ hnil =>
      cases hnil
      obtain ⟨n, hn⟩ := Nat.exists_eq_succ_of_ne_zero c.utf8Size_pos.ne'
      simp [hn, List.replicate_succ', not_inIdentifier_space]

theorem CharsBlanked.head? {cs ds : List Char} (h : CharsBlanked cs ds)
    (hhead : ∀ c ∈ cs.head?, inIdentifier unicode c = false) : ∀ c ∈ ds.head?, inIdentifier unicode c = false := by
  cases h with
  | nil => simp
  | keep c _ => simpa using hhead
  | blank c _ =>
    obtain ⟨n, hn⟩ := Nat.exists_eq_succ_of_ne_zero c.utf8Size_pos.ne'
    simp [hn, List.replicate_succ, not_inIdentifier_space]

/-- An identifier outside of the blanked comments is one of what is left. -/
theorem mem_identifiers (hblanked : BlankedInComments (asBytes source) (withoutComments (asBytes source)))
    (hcode : withoutCommentsText source = some code) {identifier : String}
    (h : IdentifierOutsideComments unicode source identifier) : identifier ∈ identifiers unicode code := by
  obtain ⟨before, after, hsource, hne, hrun, hbefore, hafter, hkinds⟩ := h
  obtain ⟨code', hcode', hchars⟩ := withoutCommentsText_eq_some source
  obtain rfl : code' = code := Option.some.inj (hcode'.symm.trans hcode)
  rw [hsource] at hchars
  obtain ⟨front, rest, hrest, hfront, hchars⟩ := hchars.append_inv
  obtain ⟨middle, back, rfl, hmiddle, hback⟩ := hchars.append_inv
  have houtput : withoutComments (asBytes source) = utf8 front ++ (utf8 middle ++ utf8 back) := by
    rw [← fromUtf8_eq_some.mp hcode, asBytes_eq_utf8, hrest, utf8_append, utf8_append]
  have hinput : asBytes source = utf8 before ++ (utf8 identifier.toList ++ utf8 after) := by
    rw [asBytes_eq_utf8, hsource, utf8_append, utf8_append]
  have hlength := hmiddle.length_utf8
  -- no byte of the identifier is blanked
  have hkept : utf8 middle = utf8 identifier.toList := by
    refine List.ext_getElem? fun i => ?_
    by_cases hi : i < (utf8 identifier.toList).length
    · by_contra hbyte
      obtain ⟨kind, hkind, hcomment⟩ := hblanked ((utf8 before).length + i) (by
        rw [houtput, ← hfront.length_utf8, List.getElem?_append_right (by omega), Nat.add_sub_cancel_left,
          List.getElem?_append_left (hlength ▸ hi), hfront.length_utf8, hinput,
          List.getElem?_append_right (by omega), Nat.add_sub_cancel_left, List.getElem?_append_left hi]
        exact hbyte)
      rw [hkinds i (by rwa [asBytes_eq_utf8]) kind hkind] at hcomment
      cases hcomment
    · rw [List.getElem?_eq_none (by omega), List.getElem?_eq_none (by omega)]
  rw [utf8_inj] at hkept
  subst hkept
  refine List.mem_map.mpr ⟨identifier.toList, ?_, String.ofList_toList⟩
  rw [hrest]
  exact mem_maximalRuns_append hne hrun (hfront.getLast? hbefore) (hback.head? hafter)

end Seen

/-- Where no comment starts but the source's own, the purity rules read the source as they should. -/
theorem commentsStripped_of_firstClash (unicode : Char → Bool) {source : String}
    (hclash : firstClash .start (pieces (asBytes source)) = none) : CommentsStripped unicode source := by
  have hall := withoutCommentsFrom_blanked 0 .start (asBytes source)
  have hcomments : BlankedInComments (asBytes source) (withoutComments (asBytes source)) :=
    blankedInComments_withoutCommentsFrom hclash
  obtain ⟨code, hcode, -⟩ := withoutCommentsText_eq_some source
  refine ⟨hall.length_eq.symm, getElem?_newline_of_blanked hall, tokenize_withoutCommentsFrom hclash, hcomments,
    ⟨code, hcode, fun identifier => mem_identifiers hcomments hcode⟩, fun unsupported file boundary hrules => ?_⟩
  have hpure : ¬ (!isDomain boundary && !isApplication boundary) = true := by
    rw [← Bool.not_or, hrules]
    exact Bool.false_ne_true
  refine ⟨_, by rw [enforceDirectionalRules, if_neg hpure, hcode]; rfl, fun name hname houtside => ?_⟩
  have hseen := mem_identifiers hcomments hcode houtside
  refine List.mem_append_left _ (List.mem_append_left _ (List.mem_append_left _ (List.mem_append_left _
    (List.mem_append_right _ (List.mem_map_of_mem (List.mem_filter.mpr ⟨hname, ?_⟩))))))
  exact List.contains_iff_mem.mpr hseen

/-- The purity rules read a source as they should if no comment starts for them within its code, its literals or
one of its comments, apart from one more `//` in a line comment; and they do not if the first one which does is
in code or a literal. -/
theorem withoutComments_faithful (unicode : Char → Bool) (source : String) :
    (firstClash .start (pieces (asBytes source)) = none → CommentsStripped unicode source) ∧
      ∀ kind : Lexeme, firstClash .start (pieces (asBytes source)) = some kind → kind.isComment = false →
        ¬ CommentsStripped unicode source :=
  ⟨commentsStripped_of_firstClash unicode,
    fun _ hclash hcode hstripped => not_blankedInComments hclash hcode hstripped.comments⟩

/-- A line comment is stripped and the string in front of it is not. -/
theorem withoutComments_faithful_sample : CommentsStripped (fun _ => false) "\"//\"; // tokio" :=
  (withoutComments_faithful (fun _ => false) "\"//\"; // tokio").1 (by decide +kernel)

/-- An apostrophe of a lifetime turns a string into code, in which a comment starts: the crate behind is not seen. -/
theorem withoutComments_hides :
    let source := "'a \"'\" \"//\" tokio"
    firstClash .start (pieces (asBytes source)) = some .literal ∧
      tokenize (asBytes source) = [.other, .ident "a", .ident "tokio"] ∧
      tokenize (withoutComments (asBytes source)) = [.other, .ident "a"] ∧
      ¬ CommentsStripped (fun _ => false) source := by
  intro source
  have htokens : tokenize (asBytes source) = [.other, .ident "a", .ident "tokio"] := by decide +kernel
  have hstripped : tokenize (withoutComments (asBytes source)) = [.other, .ident "a"] := by decide +kernel
  refine ⟨by decide +kernel, htokens, hstripped, fun h => ?_⟩
  have hlost := h.tokens
  rw [htokens, hstripped] at hlost
  exact absurd hlost (by decide)

end Voicetext.Xtask
