import Voicetext.Xtask.TestItems

/-!
# First-party paths

The verifier takes the first-party paths of a source from what is left without its test items: the use
declarations, the modules it declares and the paths in its code. Where the search for test items comes across
code only, these are exactly the paths of the tokens outside of them.
-/

namespace Voicetext.Xtask

open Byte Voicetext.Common.Text

/-! ## Paths of tokens -/

/-- The parts of a path behind its first one, and what is behind the path. -/
def pathParts : List Token → UsePath × List Token
  | .colonColon :: .ident part :: rest => (part :: (pathParts rest).1, (pathParts rest).2)
  | tokens => ([], tokens)

/-- Whether a path which starts so is recognized, from the names of the first-party crates. -/
def recognized (crates : String → Bool) (first : String) : Bool :=
  first == "crate" || first == "self" || first == "super" || crates first

/-- The module a `mod` in front of these tokens declares. -/
def declaredModule : List Token → List UsePath
  | .ident module :: .semicolon :: _ => [["self", module]]
  | _ => []

/-- The loop of `first_party_paths` over the tokens, for a number of passes. -/
def codePaths (crates : String → Bool) : ℕ → List Token → List UsePath
  | 0, _ => []
  | _ + 1, [] => []
  | passes + 1, .ident first :: rest =>
    (if first = "mod" then declaredModule rest else []) ++
    if recognized crates first ∧ rest.head? = some .colonColon then
      (if (pathParts rest).1 = [] then [] else [first :: (pathParts rest).1]) ++
        codePaths crates passes (pathParts rest).2
    else codePaths crates passes rest
  | passes + 1, _ :: rest => codePaths crates passes rest

/-- A path from `self` is one from the crate, in a module which is not its root. -/
def resolveSelf (currentModule : UsePath) (path : UsePath) : UsePath :=
  if path.head? = some "self" ∧ currentModule ≠ [] then "crate" :: (currentModule ++ path.tail) else path

/-- The paths which are read off tokens in a module, when the use declarations among them can be read. -/
def PathsOf (crates : String → Bool) (currentModule : UsePath) (tokens : List Token) (paths : List UsePath) : Prop :=
  ∃ uses, Returns tokens uses ∧ paths = (uses ++ codePaths crates tokens.length tokens).map (resolveSelf currentModule)

/-- `first_party_paths` returns these paths. -/
def FirstPartyPaths (crates : String → Bool) (currentModule : UsePath) (source : String) (paths : List UsePath) : Prop :=
  ∃ code, fromUtf8 (withoutCfgTestModules (asBytes source)) = some code ∧
    PathsOf crates currentModule (tokenize (asBytes code)) paths

/-! ## Blanked items leave a text -/

/-- Items are blanked character by character. -/
theorem exists_withoutCfgTestModules_utf8 (cs : List Char) : ∃ ds, withoutCfgTestModules (utf8 cs) = utf8 ds := by
  induction hlength : cs.length using Nat.strong_induction_on generalizing cs with
  | _ length ih =>
    subst hlength
    cases hfind : findMarker (utf8 cs) with
    | none => exact ⟨cs, withoutCfgTestModules_of_none hfind⟩
    | some found =>
      obtain ⟨before, remainder⟩ := found
      cases hend : behindItem remainder with
      | none => exact ⟨cs, withoutCfgTestModules_of_break hfind hend⟩
      | some after =>
        obtain ⟨hsource, hmarker⟩ := findMarker_eq_some hfind
        obtain ⟨item, last, rfl, hlast⟩ := behindItem_suffix hend
        have hascii : last < 128 ∧ last ≠ pound := by
          obtain rfl | rfl := hlast <;> decide
        -- the item starts with the first byte of the attribute
        obtain ⟨item, rfl⟩ : ∃ tail, item = pound :: tail := by
          cases item with
          | nil => exact absurd (eq_pound_of_starts (List.isPrefixOf_iff_prefix.mpr hmarker)).symm hascii.2
          | cons b item => exact ⟨item, by rw [eq_pound_of_starts (List.isPrefixOf_iff_prefix.mpr hmarker)]⟩
        rw [← List.append_assoc] at hsource
        obtain ⟨cs', c, behind, rfl, hitem, hc, rfl⟩ := utf8_split hascii.1 hsource
        obtain ⟨front, d, inner, rfl, rfl, hd, rfl⟩ := utf8_split (by decide) hitem
        obtain ⟨item', hitem', hleft⟩ := withoutCfgTestModules_of_item hfind hend
        have hblanked : item' = utf8 (d :: inner ++ [c]) := by
          refine List.append_cancel_right (hitem'.symm.trans ?_)
          simp [hc, hd]
        obtain ⟨spaces, hspaces⟩ := exists_blank_chars (d :: inner ++ [c])
        obtain ⟨ds, hds⟩ := ih behind.length (by simp; omega) behind rfl
        exact ⟨front ++ (spaces ++ ds), by rw [hleft, hblanked, ← hspaces, hds, utf8_append, utf8_append]⟩

/-- Blanking test items leaves a text: the expectation that the source began as UTF-8 does not fail. -/
theorem exists_fromUtf8_withoutCfgTestModules (source : String) :
    ∃ code, fromUtf8 (withoutCfgTestModules (asBytes source)) = some code := by
  obtain ⟨ds, hds⟩ := exists_withoutCfgTestModules_utf8 source.toList
  refine ⟨String.ofList ds, fromUtf8_eq_some.mpr ?_⟩
  rw [asBytes_eq_utf8, String.toList_ofList, ← hds, asBytes_eq_utf8]

/-! ## Nothing else is hidden -/

/-- The verifier reads a source without its test items, and all the rest of it. -/
structure TestItemsRemoved (source : String) : Prop where
  tokens : ∃ code, fromUtf8 (withoutCfgTestModules (asBytes source)) = some code ∧
    tokenize (asBytes code) = tokensOutsideTestItems (asBytes source)
  paths : ∀ crates currentModule paths, FirstPartyPaths crates currentModule source paths ↔
    PathsOf crates currentModule (tokensOutsideTestItems (asBytes source)) paths

/-- Where the search comes across code only, the verifier reads the tokens and the paths outside of test items. -/
theorem testItemsRemoved_of_searchesCode (source : String)
    (h : searchesCode 0 (pieces (asBytes source)) = true) : TestItemsRemoved source := by
  obtain ⟨code, hcode⟩ := exists_fromUtf8_withoutCfgTestModules source
  have htokens : tokenize (asBytes code) = tokensOutsideTestItems (asBytes source) := by
    rw [fromUtf8_eq_some.mp hcode]
    exact (leftOutside_of_searchesCode h).tokens
  refine ⟨⟨code, hcode, htokens⟩, fun crates currentModule paths => ?_⟩
  constructor
  · rintro ⟨code', hcode', hpaths⟩
    obtain rfl : code = code' := Option.some.inj (hcode.symm.trans hcode')
    rwa [htokens] at hpaths
  · intro hpaths
    exact ⟨code, hcode, by rwa [htokens]⟩

/-- A test item is gone, and the path behind it stays. -/
theorem testItemsRemoved_sample : TestItemsRemoved "#[cfg(test)] mod t { a } crate::b" :=
  testItemsRemoved_of_searchesCode "#[cfg(test)] mod t { a } crate::b" (by decide +kernel)

/-- An attribute within a string is taken for that of a test item: what is left opens a string, in which the path
is lost. -/
theorem testItemsRemoved_hides :
    let source := "\"#[cfg(test)]\";crate::a"
    tokensOutsideTestItems (asBytes source) = [.semicolon, .ident "crate", .colonColon, .ident "a"] ∧
      tokenize (withoutCfgTestModules (asBytes source)) = [] ∧
      PathsOf (fun _ => false) [] (tokensOutsideTestItems (asBytes source)) [["crate", "a"]] ∧
      FirstPartyPaths (fun _ => false) [] source [] ∧ ¬ TestItemsRemoved source := by
  intro source
  have houtside : tokensOutsideTestItems (asBytes source) = [.semicolon, .ident "crate", .colonColon, .ident "a"] := by
    decide +kernel
  have hleft : tokenize (withoutCfgTestModules (asBytes source)) = [] := by decide +kernel
  obtain ⟨code, hcode⟩ := exists_fromUtf8_withoutCfgTestModules source
  have htokens : tokenize (asBytes code) = [] := by rw [fromUtf8_eq_some.mp hcode, hleft]
  refine ⟨houtside, hleft, ?_, ⟨code, hcode, ?_⟩, fun h => ?_⟩
  · rw [houtside]
    exact ⟨[], ⟨5, by decide⟩, by decide⟩
  · rw [htokens]
    exact ⟨[], .nil, rfl⟩
  · obtain ⟨code', hcode', htokens'⟩ := h.tokens
    obtain rfl : code = code' := Option.some.inj (hcode.symm.trans hcode')
    rw [htokens, houtside] at htokens'
    cases htokens'

end Voicetext.Xtask
