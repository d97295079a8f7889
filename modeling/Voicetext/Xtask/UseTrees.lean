import Voicetext.Xtask.Tokens

/-!
# Expansion of use trees

The verifier reads the trees of a use declaration by recursive descent over the tokens. Nothing makes a pass
of its group loop take a token, so whether it stops is decided by the tokens inside of open groups: there, a
token which starts no tree and neither separates nor closes is read for ever. A declaration of the use grammar
is expanded to the paths of its leaves, except where `self` is renamed or has no path in front of it.
-/

namespace Voicetext.Xtask

/-- A path of identifiers. -/
abbrev UsePath := List String

/-- `skip_alias`. -/
def skipAlias : List Token → List Token
  | .ident "as" :: .ident _ :: rest => rest
  | .ident "as" :: rest => rest
  | tokens => tokens

/-- Drop a comma. -/
def skipComma : List Token → List Token
  | .comma :: rest => rest
  | tokens => tokens

mutual

/-- The loop of `parse_use_tree` with the path it has read, for a number of passes: the tokens which are left,
and the paths it pushes. -/
def parseUseTree : ℕ → UsePath → List Token → Option (List Token × List UsePath)
  | 0, _, _ => none
  | _ + 1, _, [] => some ([], [])
  | passes + 1, path, .ident part :: rest =>
    if part = "self" ∧ path ≠ [] then some (rest, [path])
    else if rest.head? = some .colonColon then parseUseTree passes (path ++ [part]) rest.tail
    else some (skipAlias rest, [path ++ [part]])
  | passes + 1, path, .leftBrace :: rest => parseUseGroup passes path rest
  | _ + 1, path, .star :: rest => some (rest, [path])
  | _ + 1, path, tokens => some (tokens, if path = [] then [] else [path])

/-- The loop over the trees of a group, behind its brace and with the path in front of it. -/
def parseUseGroup : ℕ → UsePath → List Token → Option (List Token × List UsePath)
  | 0, _, _ => none
  | _ + 1, _, [] => some ([], [])
  | passes + 1, path, token :: rest =>
    if token = .rightBrace then some (rest, [])
    else do
      let (rest, paths) ← parseUseTree passes path (token :: rest)
      let (rest, more) ← parseUseGroup passes path (skipComma rest)
      return (rest, paths ++ more)

end

/-- `use_paths`, for a number of passes. -/
def usePaths : ℕ → List Token → Option (List UsePath)
  | 0, _ => none
  | _ + 1, [] => some []
  | passes + 1, token :: rest =>
    if token = .ident "use" then do
      let (rest, paths) ← parseUseTree passes [] rest
      let more ← usePaths passes rest
      return paths ++ more
    else usePaths passes rest

/-- The paths `use_paths` returns, when it does. -/
def Returns (tokens : List Token) (paths : List UsePath) : Prop := ∃ passes, usePaths passes tokens = some paths

/-- Whether `use_paths` stops. -/
def Terminates (tokens : List Token) : Prop := ∃ paths, Returns tokens paths

/-! ## More passes read the same -/

section Passes

variable {passes passes' : ℕ} {path : UsePath} {tokens rest : List Token} {result : List Token × List UsePath}

/-- A pass of the group loop over a token which does not close the group. -/
theorem parseUseGroup_cons_eq_some {token : Token} (hopen : token ≠ .rightBrace) :
    parseUseGroup (passes + 1) path (token :: rest) = some result ↔
      ∃ rest₁ paths rest₂ more, parseUseTree passes path (token :: rest) = some (rest₁, paths) ∧
        parseUseGroup passes path (skipComma rest₁) = some (rest₂, more) ∧ result = (rest₂, paths ++ more) := by
  rw [parseUseGroup, if_neg hopen]
  constructor
  · intro h
    obtain ⟨⟨rest₁, paths⟩, htree, h⟩ := Option.bind_eq_some_iff.mp h
    obtain ⟨⟨rest₂, more⟩, hgroup, h⟩ := Option.bind_eq_some_iff.mp h
    exact ⟨rest₁, paths, rest₂, more, htree, hgroup, (Option.some.inj h).symm⟩
  · rintro ⟨rest₁, paths, rest₂, more, htree, hgroup, rfl⟩
    simp [htree, hgroup]

/-- A pass of `use_paths` over a declaration. -/
theorem usePaths_use_eq_some {read : List UsePath} : usePaths (passes + 1) (.ident "use" :: rest) = some read ↔
    ∃ rest₁ paths more, parseUseTree passes [] rest = some (rest₁, paths) ∧ usePaths passes rest₁ = some more ∧
      read = paths ++ more := by
  rw [usePaths, if_pos rfl]
  constructor
  · intro h
    obtain ⟨⟨rest₁, paths⟩, htree, h⟩ := Option.bind_eq_some_iff.mp h
    obtain ⟨more, hmore, h⟩ := Option.bind_eq_some_iff.mp h
    exact ⟨rest₁, paths, more, htree, hmore, (Option.some.inj h).symm⟩
  · rintro ⟨rest₁, paths, more, htree, hmore, rfl⟩
    simp [htree, hmore]

theorem parse_succ (passes : ℕ) :
    (∀ path tokens result, parseUseTree passes path tokens = some result →
      parseUseTree (passes + 1) path tokens = some result) ∧
    ∀ path tokens result, parseUseGroup passes path tokens = some result →
      parseUseGroup (passes + 1) path tokens = some result := by
  induction passes with
  | zero => exact ⟨fun _ _ _ h => (nomatch h), fun _ _ _ h => (nomatch h)⟩
  | succ passes ih =>
    obtain ⟨ihTree, ihGroup⟩ := ih
    constructor
    · intro path tokens result h
      cases tokens with
      | nil => exact h
      | cons token rest =>
        cases token with
        | ident part =>
          rw [parseUseTree] at h ⊢
          by_cases hself : part = "self" ∧ path ≠ []
          · rwa [if_pos hself] at h ⊢
          · rw [if_neg hself] at h ⊢
            by_cases hpath : rest.head? = some .colonColon
            · rw [if_pos hpath] at h ⊢
              exact ihTree _ _ _ h
            · rwa [if_neg hpath] at h ⊢
        | leftBrace => exact ihGroup _ _ _ h
        | _ => exact h
    · intro path tokens result h
      cases tokens with
      | nil => exact h
      | cons token rest =>
        by_cases hclosed : token = .rightBrace
        · rw [parseUseGroup, if_pos hclosed] at h ⊢
          exact h
        · rw [parseUseGroup_cons_eq_some hclosed] at h ⊢
          obtain ⟨rest₁, paths, rest₂, more, htree, hgroup, rfl⟩ := h
          exact ⟨rest₁, paths, rest₂, more, ihTree _ _ _ htree, ihGroup _ _ _ hgroup, rfl⟩

theorem parseUseTree_mono (hle : passes ≤ passes') (h : parseUseTree passes path tokens = some result) :
    parseUseTree passes' path tokens = some result := by
  induction hle with
  | refl => exact h
  | step _ ih => exact (parse_succ _).1 _ _ _ ih

theorem parseUseGroup_mono (hle : passes ≤ passes') (h : parseUseGroup passes path tokens = some result) :
    parseUseGroup passes' path tokens = some result := by
  induction hle with
  | refl => exact h
  | step _ ih => exact (parse_succ _).2 _ _ _ ih

theorem usePaths_succ {paths : List UsePath} (h : usePaths passes tokens = some paths) :
    usePaths (passes + 1) tokens = some paths := by
  induction passes generalizing tokens paths with
  | zero => cases h
  | succ passes ih =>
    cases tokens with
    | nil => exact h
    | cons token rest =>
      by_cases huse : token = .ident "use"
      · subst huse
        rw [usePaths_use_eq_some] at h ⊢
        obtain ⟨rest₁, read, more, htree, hmore, rfl⟩ := h
        exact ⟨rest₁, read, more, (parse_succ _).1 _ _ _ htree, ih hmore, rfl⟩
      · rw [usePaths, if_neg huse] at h ⊢
        exact ih h

theorem usePaths_mono {paths : List UsePath} (hle : passes ≤ passes') (h : usePaths passes tokens = some paths) :
    usePaths passes' tokens = some paths := by
  induction hle with
  | refl => exact h
  | step _ ih => exact usePaths_succ ih

end Passes

/-- What is returned does not depend on the passes. -/
theorem Returns.unique {tokens : List Token} {paths paths' : List UsePath} (h : Returns tokens paths)
    (h' : Returns tokens paths') : paths = paths' := by
  obtain ⟨passes, h⟩ := h
  obtain ⟨passes', h'⟩ := h'
  have hmax := usePaths_mono (le_max_left passes passes') h
  rw [usePaths_mono (le_max_right passes passes') h'] at hmax
  exact (Option.some.inj hmax).symm

/-! ## Where reading stops -/

/-- Where the reader of use trees stands. -/
inductive Stand
  /-- Between two trees of the innermost open group, or outside of every declaration. -/
  | between
  /-- At a tree or at the rest of its path; whether there is a path yet. -/
  | atTree (prefixed : Bool)
  /-- Behind an identifier of a path. -/
  | behindName
  /-- Behind the `as` of an alias. -/
  | behindAs
deriving DecidableEq

/-- A token which starts a tree or continues its path; the open groups are kept with whether there is a path in
front of them. -/
def startTree (prefixed : Bool) (groups : List Bool) : Token → Option (Stand × List Bool)
  | .ident part => some (if part = "self" ∧ prefixed = true then .between else .behindName, groups)
  | .leftBrace => some (.between, prefixed :: groups)
  | .star => some (.between, groups)
  | _ => none

/-- A token between two trees. In an open group, it starts a tree, separates, closes, or is out of place. -/
def placeBetween : List Bool → Token → Option (Stand × List Bool)
  | [], token => some (if token = .ident "use" then .atTree false else .between, [])
  | prefixed :: outer, token =>
    (startTree prefixed (prefixed :: outer) token).or
      (if token = .comma then some (.between, prefixed :: outer)
      else if token = .rightBrace then some (.between, outer)
      else none)

/-- The place of a token where the reader stands. -/
def place : Stand × List Bool → Token → Option (Stand × List Bool)
  | (.between, groups), token => placeBetween groups token
  | (.atTree prefixed, groups), token => (startTree prefixed groups token).or (placeBetween groups token)
  | (.behindName, groups), token =>
    if token = .colonColon then some (.atTree true, groups)
    else if token = .ident "as" then some (.behindAs, groups)
    else placeBetween groups token
  | (.behindAs, groups), token =>
    match token with
    | .ident _ => some (.between, groups)
    | token => placeBetween groups token

/-- Whether every token has its place, one after the other. -/
def inPlace : Stand × List Bool → List Token → Bool
  | _, [] => true
  | state, token :: rest => (place state token).any fun state => inPlace state rest

/-- No token inside of an open group is out of place. -/
def AllInPlace (tokens : List Token) : Prop := inPlace (.between, []) tokens = true

instance (tokens : List Token) : Decidable (AllInPlace tokens) := inferInstanceAs (Decidable (_ = true))

section Places

variable {passes : ℕ} {path : UsePath} {tokens rest : List Token} {paths : List UsePath} {groups : List Bool}
  {prefixed : Bool} {token : Token}

theorem inPlace_startTree {state : Stand × List Bool} (h : startTree prefixed groups token = some state) :
    inPlace (.atTree prefixed, groups) (token :: rest) = inPlace state rest := by
  simp [inPlace, place, h]

/-- A token which starts no tree is between trees. -/
theorem inPlace_of_startTree_none (h : startTree prefixed groups token = none) :
    inPlace (.atTree prefixed, groups) (token :: rest) = inPlace (.between, groups) (token :: rest) := by
  simp [inPlace, place, h]

/-- Between the trees of a group stands a tree with the path of the group. -/
theorem inPlace_between_cons :
    inPlace (.between, prefixed :: groups) tokens = inPlace (.atTree prefixed, prefixed :: groups) tokens := by
  cases tokens with
  | nil => rfl
  | cons token rest => cases h : startTree prefixed (prefixed :: groups) token <;> simp [inPlace, place, placeBetween, h]

/-- What starts no tree and does not close the group separates its trees. -/
theorem eq_comma_of_inPlace (hstart : startTree prefixed (prefixed :: groups) token = none)
    (hopen : token ≠ .rightBrace) (h : inPlace (.between, prefixed :: groups) (token :: rest) = true) :
    token = .comma := by
  by_contra hne
  simp [inPlace, place, placeBetween, hstart, hne, hopen] at h

theorem inPlace_skipComma :
    inPlace (.between, prefixed :: groups) tokens = inPlace (.between, prefixed :: groups) (skipComma tokens) := by
  match tokens with
  | [] => rfl
  | token :: rest => cases token <;> simp [inPlace, place, placeBetween, startTree, skipComma]

theorem inPlace_skipAlias (h : tokens.head? ≠ some .colonColon) :
    inPlace (.behindName, groups) tokens = inPlace (.between, groups) (skipAlias tokens) := by
  cases tokens with
  | nil => rfl
  | cons token rest =>
    have hpath : token ≠ .colonColon := fun heq => h (congrArg some heq)
    by_cases has : token = .ident "as"
    · subst has
      cases rest with
      | nil => rfl
      | cons next rest => cases next <;> simp [inPlace, place, skipAlias]
    · have hskip : skipAlias (token :: rest) = token :: rest := by
        unfold skipAlias
        split <;> simp_all
      simp [inPlace, place, hpath, has, hskip]

/-- Reading a tree leaves the reader between trees, and reading the trees of a group behind the group. -/
theorem inPlace_of_parse (passes : ℕ) :
    (∀ path tokens rest paths groups, parseUseTree passes path tokens = some (rest, paths) →
      inPlace (.atTree (path ≠ []), groups) tokens = inPlace (.between, groups) rest) ∧
    ∀ path tokens rest paths groups, parseUseGroup passes path tokens = some (rest, paths) →
      inPlace (.between, decide (path ≠ []) :: groups) tokens = inPlace (.between, groups) rest := by
  induction passes with
  | zero => exact ⟨fun _ _ _ _ _ h => (nomatch h), fun _ _ _ _ _ h => (nomatch h)⟩
  | succ passes ih =>
    obtain ⟨ihTree, ihGroup⟩ := ih
    constructor
    · intro path tokens rest paths groups h
      cases tokens with
      | nil =>
        cases h
        rfl
      | cons token tokens =>
        cases token with
        | ident part =>
          rw [parseUseTree] at h
          rw [inPlace_startTree rfl]
          by_cases hself : part = "self" ∧ path ≠ []
          · rw [if_pos hself] at h
            cases h
            simp [hself]
          · have hname : ¬ (part = "self" ∧ decide (path ≠ []) = true) := by simpa using hself
            rw [if_neg hself] at h
            rw [if_neg hname]
            by_cases hpath : tokens.head? = some .colonColon
            · rw [if_pos hpath] at h
              obtain ⟨tokens, rfl⟩ := List.head?_eq_some_iff.mp hpath
              have hrest := ihTree _ _ _ _ groups h
              simpa [inPlace, place] using hrest
            · rw [if_neg hpath] at h
              cases h
              exact inPlace_skipAlias hpath
        | leftBrace =>
          rw [inPlace_startTree rfl]
          exact ihGroup _ _ _ _ _ h
        | star =>
          cases h
          exact inPlace_startTree rfl
        | _ =>
          cases h
          exact inPlace_of_startTree_none rfl
    · intro path tokens rest paths groups h
      cases tokens with
      | nil =>
        cases h
        rfl
      | cons token tokens =>
        by_cases hclosed : token = .rightBrace
        · subst hclosed
          cases h
          simp [inPlace, place, placeBetween, startTree]
        · obtain ⟨rest₁, paths, rest₂, more, htree, hgroup, heq⟩ := (parseUseGroup_cons_eq_some hclosed).mp h
          cases heq
          rw [inPlace_between_cons, ihTree _ _ _ _ _ htree, inPlace_skipComma, ihGroup _ _ _ _ _ hgroup]

/-- What terminates has every token in its place. -/
theorem inPlace_of_usePaths {passes : ℕ} (h : usePaths passes tokens = some paths) :
    inPlace (.between, []) tokens = true := by
  induction passes generalizing tokens paths with
  | zero => cases h
  | succ passes ih =>
    cases tokens with
    | nil => rfl
    | cons token tokens =>
      by_cases huse : token = .ident "use"
      · subst huse
        obtain ⟨rest, read, more, htree, hmore, rfl⟩ := usePaths_use_eq_some.mp h
        have hplaces := (inPlace_of_parse passes).1 _ _ _ _ [] htree
        rw [ih hmore] at hplaces
        simpa [inPlace, place, placeBetween] using hplaces
      · rw [usePaths, if_neg huse] at h
        simpa [inPlace, place, placeBetween, huse] using ih h

end Places

/-! ## What the reader reads -/

/-- The reader of a tree, with a path in front of it, leaves these tokens and pushes these paths. -/
def ReadsTree (path : UsePath) (tokens rest : List Token) (paths : List UsePath) : Prop :=
  ∃ passes, parseUseTree passes path tokens = some (rest, paths)

/-- The reader of the trees of a group leaves these tokens and pushes these paths. -/
def ReadsGroup (path : UsePath) (tokens rest : List Token) (paths : List UsePath) : Prop :=
  ∃ passes, parseUseGroup passes path tokens = some (rest, paths)

section Reads

variable {path : UsePath} {tokens rest rest' : List Token} {paths more : List UsePath} {part : String}

theorem ReadsTree.self (hpath : path ≠ []) : ReadsTree path (.ident "self" :: rest) rest [path] :=
  ⟨1, by simp [parseUseTree, hpath]⟩

theorem ReadsTree.star : ReadsTree path (.star :: rest) rest [path] := ⟨1, rfl⟩

theorem ReadsTree.segment (hname : ¬ (part = "self" ∧ path ≠ [])) (h : ReadsTree (path ++ [part]) tokens rest paths) :
    ReadsTree path (.ident part :: .colonColon :: tokens) rest paths := by
  obtain ⟨passes, h⟩ := h
  exact ⟨passes + 1, by simpa [parseUseTree, hname] using h⟩

theorem ReadsTree.name (hname : ¬ (part = "self" ∧ path ≠ [])) (hend : tokens.head? ≠ some .colonColon) :
    ReadsTree path (.ident part :: tokens) (skipAlias tokens) [path ++ [part]] :=
  ⟨1, by simp [parseUseTree, hname, hend]⟩

theorem ReadsTree.group (h : ReadsGroup path tokens rest paths) : ReadsTree path (.leftBrace :: tokens) rest paths := by
  obtain ⟨passes, h⟩ := h
  exact ⟨passes + 1, h⟩

theorem ReadsGroup.close : ReadsGroup path (.rightBrace :: rest) rest [] := ⟨1, by simp [parseUseGroup]⟩

theorem ReadsGroup.tree {token : Token} (hopen : token ≠ .rightBrace)
    (htree : ReadsTree path (token :: tokens) rest' paths) (hgroup : ReadsGroup path (skipComma rest') rest more) :
    ReadsGroup path (token :: tokens) rest (paths ++ more) := by
  obtain ⟨passes, htree⟩ := htree
  obtain ⟨passes', hgroup⟩ := hgroup
  refine ⟨max passes passes' + 1, (parseUseGroup_cons_eq_some hopen).mpr ⟨rest', paths, rest, more, ?_, ?_, rfl⟩⟩
  · exact parseUseTree_mono (le_max_left _ _) htree
  · exact parseUseGroup_mono (le_max_right _ _) hgroup

theorem Returns.nil : Returns [] [] := ⟨1, rfl⟩

theorem Returns.use (htree : ReadsTree [] tokens rest paths) (hrest : Returns rest more) :
    Returns (.ident "use" :: tokens) (paths ++ more) := by
  obtain ⟨passes, htree⟩ := htree
  obtain ⟨passes', hrest⟩ := hrest
  refine ⟨max passes passes' + 1, usePaths_use_eq_some.mpr ⟨rest, paths, more, ?_, ?_, rfl⟩⟩
  · exact parseUseTree_mono (le_max_left _ _) htree
  · exact usePaths_mono (le_max_right _ _) hrest

theorem Returns.skip {token : Token} (huse : token ≠ .ident "use") (hrest : Returns tokens paths) :
    Returns (token :: tokens) paths := by
  obtain ⟨passes, hrest⟩ := hrest
  exact ⟨passes + 1, by rwa [usePaths, if_neg huse]⟩

end Reads

/-! ## Tokens in their places are read -/

section Progress

variable {path : UsePath} {tokens : List Token} {groups : List Bool}

theorem length_skipAlias_le : (skipAlias tokens).length ≤ tokens.length := by
  unfold skipAlias
  split <;> simp
  omega

theorem length_skipComma_le : (skipComma tokens).length ≤ tokens.length := by
  unfold skipComma
  split <;> simp

/-- A tree with its tokens in place is read, and takes a token where one starts it. -/
def TreeProgress (tokens : List Token) : Prop :=
  ∀ path groups, inPlace (.atTree (path ≠ []), groups) tokens = true →
    ∃ rest paths, ReadsTree path tokens rest paths ∧
      ((∀ token ∈ tokens.head?, startTree (path ≠ []) groups token = none) ∧ rest = tokens ∨
        rest.length < tokens.length)

/-- The trees of a group with their tokens in place are read. -/
def GroupProgress (tokens : List Token) : Prop :=
  ∀ path groups, inPlace (.between, decide (path ≠ []) :: groups) tokens = true →
    ∃ rest paths, ReadsGroup path tokens rest paths ∧ rest.length ≤ tokens.length

theorem TreeProgress.length_le {rest : List Token} {start : Prop}
    (h : start ∧ rest = tokens ∨ rest.length < tokens.length) : rest.length ≤ tokens.length := by
  obtain ⟨-, rfl⟩ | h := h
  · exact le_rfl
  · exact h.le

theorem treeProgress_of_shorter
    (ih : ∀ shorter : List Token, shorter.length < tokens.length → TreeProgress shorter ∧ GroupProgress shorter) :
    TreeProgress tokens := by
  intro path groups hplaces
  cases tokens with
  | nil => exact ⟨[], [], ⟨1, rfl⟩, Or.inl ⟨by simp, rfl⟩⟩
  | cons token tokens =>
    cases token with
    | ident part =>
      by_cases hself : part = "self" ∧ path ≠ []
      · obtain ⟨rfl, hpath⟩ := hself
        exact ⟨tokens, [path], .self hpath, Or.inr (by simp)⟩
      · by_cases hpath : tokens.head? = some .colonColon
        · obtain ⟨tokens, rfl⟩ := List.head?_eq_some_iff.mp hpath
          have hname : ¬ (part = "self" ∧ decide (path ≠ []) = true) := by simpa using hself
          have htree : inPlace (.atTree (path ++ [part] ≠ []), groups) tokens = true := by
            rw [inPlace_startTree rfl, if_neg hname] at hplaces
            simpa [inPlace, place] using hplaces
          obtain ⟨rest, paths, hreads, htakes⟩ := (ih tokens (by simp only [List.length_cons]; omega)).1 _ _ htree
          refine ⟨rest, paths, .segment hself hreads, Or.inr ?_⟩
          have hle := TreeProgress.length_le htakes
          simp
          omega
        · refine ⟨skipAlias tokens, [path ++ [part]], .name hself hpath, Or.inr ?_⟩
          exact Nat.lt_succ_of_le length_skipAlias_le
    | leftBrace =>
      rw [inPlace_startTree rfl] at hplaces
      obtain ⟨rest, paths, hreads, hle⟩ := (ih tokens (by simp)).2 path groups hplaces
      exact ⟨rest, paths, .group hreads, Or.inr (Nat.lt_succ_of_le hle)⟩
    | star => exact ⟨tokens, [path], .star, Or.inr (by simp)⟩
    | _ => exact ⟨_, _, ⟨1, rfl⟩, Or.inl ⟨by simp [startTree], rfl⟩⟩

theorem groupProgress_of_shorter (htree : TreeProgress tokens)
    (ih : ∀ shorter : List Token, shorter.length < tokens.length → GroupProgress shorter) : GroupProgress tokens := by
  intro path groups hplaces
  cases tokens with
  | nil => exact ⟨[], [], ⟨1, rfl⟩, le_rfl⟩
  | cons token tokens =>
    by_cases hclosed : token = .rightBrace
    · subst hclosed
      exact ⟨tokens, [], .close, by simp⟩
    · rw [inPlace_between_cons] at hplaces
      obtain ⟨rest, paths, hreads, htakes⟩ := htree _ _ hplaces
      -- what starts no tree is a comma here, which is dropped
      have hshorter : (skipComma rest).length < (token :: tokens).length := by
        obtain ⟨hstart, rfl⟩ | hlt := htakes
        · have hnone : startTree (path ≠ []) (decide (path ≠ []) :: groups) token = none := hstart token rfl
          rw [inPlace_of_startTree_none hnone] at hplaces
          simp [eq_comma_of_inPlace hnone hclosed hplaces, skipComma]
        · exact length_skipComma_le.trans_lt hlt
      have hmore : inPlace (.between, decide (path ≠ []) :: groups) (skipComma rest) = true := by
        obtain ⟨passes, hreads⟩ := hreads
        rwa [(inPlace_of_parse passes).1 _ _ _ _ _ hreads, inPlace_skipComma] at hplaces
      obtain ⟨rest', more, hgroup, hle⟩ := ih _ hshorter _ _ hmore
      exact ⟨rest', paths ++ more, .tree hclosed hreads hgroup, hle.trans hshorter.le⟩

theorem progress (tokens : List Token) : TreeProgress tokens ∧ GroupProgress tokens := by
  induction hlength : tokens.length using Nat.strong_induction_on generalizing tokens with
  | _ length ih =>
    subst hlength
    have hshorter : ∀ shorter : List Token, shorter.length < tokens.length →
        TreeProgress shorter ∧ GroupProgress shorter := fun shorter hlt => ih _ hlt shorter rfl
    have htree := treeProgress_of_shorter hshorter
    exact ⟨htree, groupProgress_of_shorter htree fun shorter hlt => (hshorter shorter hlt).2⟩

theorem terminates_of_allInPlace (h : AllInPlace tokens) : Terminates tokens := by
  unfold AllInPlace at h
  induction hlength : tokens.length using Nat.strong_induction_on generalizing tokens with
  | _ length ih =>
    subst hlength
    cases tokens with
    | nil => exact ⟨[], .nil⟩
    | cons token tokens =>
      by_cases huse : token = .ident "use"
      · subst huse
        have hplaces : inPlace (.atTree (([] : UsePath) ≠ []), []) tokens = true := by
          simpa [inPlace, place, placeBetween] using h
        obtain ⟨rest, paths, hreads, htakes⟩ := (progress tokens).1 [] [] hplaces
        have hrest : inPlace (.between, []) rest = true := by
          obtain ⟨passes, hreads⟩ := hreads
          rwa [(inPlace_of_parse passes).1 _ _ _ _ _ hreads] at hplaces
        obtain ⟨more, hmore⟩ := ih _ (Nat.lt_succ_of_le (TreeProgress.length_le htakes)) hrest rfl
        exact ⟨paths ++ more, .use hreads hmore⟩
      · have hrest : inPlace (.between, []) tokens = true := by
          simpa [inPlace, place, placeBetween, huse] using h
        obtain ⟨paths, hpaths⟩ := ih _ (by simp) hrest rfl
        exact ⟨paths, hpaths.skip huse⟩

/-- Reading stops if and only if no token is out of place. -/
theorem terminates_iff : Terminates tokens ↔ AllInPlace tokens := by
  constructor
  · rintro ⟨paths, passes, h⟩
    exact inPlace_of_usePaths h
  · exact terminates_of_allInPlace

end Progress

end Voicetext.Xtask
