import Voicetext.Common.Text
import Voicetext.Xtask.UseTrees

/-!
# Use declarations

The trees of a use declaration, their tokens, and the paths of their leaves. `self` stands for the path in
front of it. The reader takes it for a name where there is no such path, and takes what renames it for two more
trees of the group: nothing else it reads differs from the leaves.
-/

namespace Voicetext.Xtask

open Voicetext.Common

/-- A tree of a use declaration, behind the segments in front of its last part. -/
inductive UseTree
  | name (segments : UsePath) (last : String) (renamed : Option String)
  | glob (segments : UsePath)
  | selfLeaf (segments : UsePath) (renamed : Option String)
  | group (segments : UsePath) (trees : List UseTree) (trailingComma : Bool)

/-- An identifier. The keywords which stand in use trees are none. -/
def isName (part : String) : Bool := part != "self" && part != "as"

/-- The segments of a path. The first one of all may be `self`. -/
def areSegments (prefixed : Bool) (segments : UsePath) : Bool :=
  if prefixed = false ∧ segments.head? = some "self" then segments.tail.all isName else segments.all isName

mutual

/-- Whether a tree is one of the grammar, in a group or not and with or without a path in front of it. -/
def UseTree.wellFormed (grouped prefixed : Bool) : UseTree → Bool
  | .name segments last renamed => areSegments prefixed segments && isName last && renamed.all isName
  | .glob segments => areSegments prefixed segments
  | .selfLeaf segments renamed => grouped && areSegments prefixed segments && renamed.all isName
  | .group segments trees _ => areSegments prefixed segments && allWellFormed (prefixed || !segments.isEmpty) trees

def allWellFormed (prefixed : Bool) : List UseTree → Bool
  | [] => true
  | tree :: trees => tree.wellFormed true prefixed && allWellFormed prefixed trees

end

def segmentTokens (segments : UsePath) : List Token := segments.flatMap fun part => [.ident part, .colonColon]

def aliasTokens (renamed : Option String) : List Token := renamed.toList.flatMap fun name => [.ident "as", .ident name]

mutual

def UseTree.tokens : UseTree → List Token
  | .name segments last renamed => segmentTokens segments ++ .ident last :: aliasTokens renamed
  | .glob segments => segmentTokens segments ++ [.star]
  | .selfLeaf segments renamed => segmentTokens segments ++ .ident "self" :: aliasTokens renamed
  | .group segments trees trailingComma => segmentTokens segments ++ .leftBrace :: groupTokens trailingComma trees

/-- The trees of a group, separated by commas, and its closing brace. -/
def groupTokens (trailingComma : Bool) : List UseTree → List Token
  | [] => [.rightBrace]
  | tree :: trees =>
    tree.tokens ++ ((if trailingComma || !trees.isEmpty then [.comma] else []) ++ groupTokens trailingComma trees)

end

mutual

/-- The paths of the leaves, behind a path. -/
def UseTree.leaves (path : UsePath) : UseTree → List UsePath
  | .name segments last _ => [path ++ segments ++ [last]]
  | .glob segments => [path ++ segments]
  | .selfLeaf segments _ => [path ++ segments]
  | .group segments trees _ => groupLeaves (path ++ segments) trees

def groupLeaves (path : UsePath) : List UseTree → List UsePath
  | [] => []
  | tree :: trees => tree.leaves path ++ groupLeaves path trees

end

mutual

/-- Whether every `self` has a path in front of it and keeps its name. -/
def UseTree.selfPlain (prefixed : Bool) : UseTree → Bool
  | .name _ _ _ => true
  | .glob _ => true
  | .selfLeaf segments renamed => (prefixed || !segments.isEmpty) && renamed.isNone
  | .group segments trees _ => allSelfPlain (prefixed || !segments.isEmpty) trees

def allSelfPlain (prefixed : Bool) : List UseTree → Bool
  | [] => true
  | tree :: trees => tree.selfPlain prefixed && allSelfPlain prefixed trees

end

mutual

/-- The paths the reader pushes for a tree in a group of a path. -/
def UseTree.read (path : UsePath) : UseTree → List UsePath
  | .name segments last _ => [path ++ segments ++ [last]]
  | .glob segments => [path ++ segments]
  | .selfLeaf segments renamed =>
    if path ++ segments = [] then [["self"]]
    else (path ++ segments) :: renamed.toList.flatMap fun name => [path ++ ["as"], path ++ [name]]
  | .group segments trees _ => groupRead (path ++ segments) trees

def groupRead (path : UsePath) : List UseTree → List UsePath
  | [] => []
  | tree :: trees => tree.read path ++ groupRead path trees

end

/-- A declaration of the use grammar. -/
structure UseDeclaration where
  tree : UseTree
  wellFormed : tree.wellFormed false false = true

namespace UseDeclaration

def tokens (declaration : UseDeclaration) : List Token :=
  .ident "use" :: (declaration.tree.tokens ++ [.semicolon])

def leaves (declaration : UseDeclaration) : List UsePath := declaration.tree.leaves []

def selfPlain (declaration : UseDeclaration) : Bool := declaration.tree.selfPlain false

end UseDeclaration

/-! ## The reader on the tokens of a tree -/

/-- Neither a path nor a name is continued here. -/
def Ends (tokens : List Token) : Prop := tokens.head? ≠ some .colonColon ∧ tokens.head? ≠ some (.ident "as")

section Reading

variable {path segments : UsePath} {tokens after rest : List Token} {paths more : List UsePath} {last : String}
  {renamed : Option String} {trees : List UseTree} {trailingComma : Bool}

theorem prefixed_append : (!(path ++ segments).isEmpty) = (!path.isEmpty || !segments.isEmpty) := by
  cases path <;> rfl

theorem skipAlias_of_ends (h : tokens.head? ≠ some (.ident "as")) : skipAlias tokens = tokens := by
  unfold skipAlias
  split <;> simp_all

theorem skipAlias_aliasTokens (hends : Ends rest) : skipAlias (aliasTokens renamed ++ rest) = rest := by
  cases renamed with
  | none => exact skipAlias_of_ends hends.2
  | some name => rfl

theorem head?_aliasTokens_append (hends : Ends rest) : (aliasTokens renamed ++ rest).head? ≠ some .colonColon := by
  cases renamed with
  | none => exact hends.1
  | some name => simp [aliasTokens]

theorem ne_self_of_isName {part : String} (h : isName part = true) : part ≠ "self" := by
  simp only [isName, Bool.and_eq_true, bne_iff_ne] at h
  exact h.1

theorem ReadsTree.names (hnames : segments.all isName = true) (h : ReadsTree (path ++ segments) tokens rest paths) :
    ReadsTree path (segmentTokens segments ++ tokens) rest paths := by
  induction segments generalizing path with
  | nil => simpa [segmentTokens] using h
  | cons part segments ih =>
    obtain ⟨hname, hnames⟩ := by simpa using hnames
    have hrest : ReadsTree (path ++ [part] ++ segments) tokens rest paths := by simpa using h
    exact .segment (fun hself => ne_self_of_isName hname hself.1) (ih (by simpa using hnames) hrest)

theorem ReadsTree.behind (hsegments : areSegments (!path.isEmpty) segments = true)
    (h : ReadsTree (path ++ segments) tokens rest paths) :
    ReadsTree path (segmentTokens segments ++ tokens) rest paths := by
  unfold areSegments at hsegments
  split at hsegments
  next hself =>
    obtain ⟨hpath, hfirst⟩ := hself
    obtain ⟨segments, rfl⟩ := List.head?_eq_some_iff.mp hfirst
    obtain rfl : path = [] := by simpa using hpath
    exact .segment (by simp) (.names hsegments h)
  next => exact .names hsegments h

theorem ReadsTree.of_name (hsegments : areSegments (!path.isEmpty) segments = true) (hlast : isName last = true)
    (hends : Ends rest) :
    ReadsTree path (segmentTokens segments ++ .ident last :: (aliasTokens renamed ++ rest)) rest
      [path ++ segments ++ [last]] := by
  have hread : ReadsTree (path ++ segments) (.ident last :: (aliasTokens renamed ++ rest))
      (skipAlias (aliasTokens renamed ++ rest)) [path ++ segments ++ [last]] :=
    .name (fun hself => ne_self_of_isName hlast hself.1) (head?_aliasTokens_append hends)
  rw [skipAlias_aliasTokens hends] at hread
  exact .behind hsegments hread

/-- Trees start, and do not close a group. -/
theorem UseTree.tokens_eq_cons (tree : UseTree) : ∃ token tokens, tree.tokens = token :: tokens ∧ token ≠ .rightBrace := by
  cases tree with
  | name segments | glob segments | selfLeaf segments | group segments =>
    cases segments <;> simp [UseTree.tokens, segmentTokens]

theorem ReadsGroup.of_tree {tree : UseTree} (htree : ReadsTree path (tree.tokens ++ after) tokens paths)
    (hmore : ReadsGroup path (skipComma tokens) rest more) :
    ReadsGroup path (tree.tokens ++ after) rest (paths ++ more) := by
  obtain ⟨token, following, htokens, hopen⟩ := tree.tokens_eq_cons
  rw [htokens] at htree ⊢
  exact .tree hopen htree hmore

/-- Between two trees of a group, neither is continued. -/
theorem ends_separator :
    Ends ((if trailingComma || !trees.isEmpty then [.comma] else []) ++ groupTokens trailingComma trees ++ rest) := by
  cases trees <;> cases trailingComma <;> simp [Ends, groupTokens]

theorem skipComma_separator :
    skipComma ((if trailingComma || !trees.isEmpty then [.comma] else []) ++ groupTokens trailingComma trees ++ rest) =
      groupTokens trailingComma trees ++ rest := by
  cases trees <;> cases trailingComma <;> simp [skipComma, groupTokens]

/-- A renamed `self` is read as three trees. -/
theorem ReadsGroup.of_selfLeaf (hwf : (UseTree.selfLeaf segments renamed).wellFormed true (!path.isEmpty) = true)
    (hends : Ends after) (hmore : ReadsGroup path (skipComma after) rest more) :
    ReadsGroup path ((UseTree.selfLeaf segments renamed).tokens ++ after) rest
      ((UseTree.selfLeaf segments renamed).read path ++ more) := by
  obtain ⟨hsegments, hrenamed⟩ : areSegments (!path.isEmpty) segments = true ∧ renamed.all isName = true := by
    simpa [UseTree.wellFormed] using hwf
  by_cases hpath : path ++ segments = []
  · have htree : ReadsTree path ((UseTree.selfLeaf segments renamed).tokens ++ after) after [["self"]] := by
      obtain ⟨rfl, rfl⟩ := List.append_eq_nil_iff.mp hpath
      have hread : ReadsTree [] (.ident "self" :: (aliasTokens renamed ++ after))
          (skipAlias (aliasTokens renamed ++ after)) [["self"]] := .name (by simp) (head?_aliasTokens_append hends)
      rw [skipAlias_aliasTokens hends] at hread
      simpa [UseTree.tokens, segmentTokens] using hread
    rw [UseTree.read, if_pos hpath]
    exact .of_tree htree hmore
  · have htree : ReadsTree path (segmentTokens segments ++ .ident "self" :: (aliasTokens renamed ++ after))
        (aliasTokens renamed ++ after) [path ++ segments] := .behind hsegments (.self hpath)
    rw [UseTree.read, if_neg hpath]
    cases renamed with
    | none => exact .of_tree (by simpa [UseTree.tokens, aliasTokens] using htree) (by simpa using hmore)
    | some name =>
      have hname : isName name = true := by simpa using hrenamed
      have has : name ≠ "as" := by
        simp only [isName, Bool.and_eq_true, bne_iff_ne] at hname
        exact hname.2
      have hread : ReadsGroup path (.ident name :: after) rest ([path ++ [name]] ++ more) := by
        refine .tree (by simp) (.name (fun hself => ne_self_of_isName hname hself.1) hends.1) ?_
        rwa [skipAlias_of_ends hends.2]
      have hrename : ReadsGroup path (.ident "as" :: .ident name :: after) rest
          ([path ++ ["as"]] ++ ([path ++ [name]] ++ more)) := by
        refine .tree (by simp) (.name (by simp) (by simp)) ?_
        rwa [skipAlias_of_ends (by simpa using has)]
      have hself : ReadsTree path ((UseTree.selfLeaf segments (some name)).tokens ++ after)
          (.ident "as" :: .ident name :: after) [path ++ segments] := by
        simpa [UseTree.tokens, aliasTokens] using htree
      have hall := ReadsGroup.of_tree hself hrename
      simpa using hall

end Reading

mutual

/-- A tree of a group and what the reader reads behind it. -/
theorem UseTree.readsGroup (tree : UseTree) (path : UsePath) (after rest : List Token) (more : List UsePath)
    (hwf : tree.wellFormed true (!path.isEmpty) = true) (hends : Ends after)
    (hmore : ReadsGroup path (skipComma after) rest more) :
    ReadsGroup path (tree.tokens ++ after) rest (tree.read path ++ more) := by
  match tree with
  | .name segments last renamed =>
    obtain ⟨⟨hsegments, hlast⟩, -⟩ := by simpa [UseTree.wellFormed] using hwf
    exact .of_tree (by simpa [UseTree.tokens, UseTree.read] using ReadsTree.of_name hsegments hlast hends) hmore
  | .glob segments =>
    have htree : ReadsTree path (segmentTokens segments ++ .star :: after) after [path ++ segments] :=
      .behind hwf .star
    exact .of_tree (by simpa [UseTree.tokens, UseTree.read] using htree) hmore
  | .selfLeaf segments renamed => exact .of_selfLeaf hwf hends hmore
  | .group segments trees trailingComma =>
    obtain ⟨hsegments, htrees⟩ := by simpa [UseTree.wellFormed] using hwf
    have hgroup := groupReads trees (path ++ segments) trailingComma after (by rwa [prefixed_append])
    exact .of_tree (by simpa [UseTree.tokens, UseTree.read] using ReadsTree.behind hsegments (.group hgroup)) hmore

/-- The trees of a group are read to its closing brace. -/
theorem groupReads (trees : List UseTree) (path : UsePath) (trailingComma : Bool) (rest : List Token)
    (hwf : allWellFormed (!path.isEmpty) trees = true) :
    ReadsGroup path (groupTokens trailingComma trees ++ rest) rest (groupRead path trees) := by
  match trees with
  | [] => exact .close
  | tree :: trees =>
    obtain ⟨htree, htrees⟩ := by simpa [allWellFormed] using hwf
    have hmore := groupReads trees path trailingComma rest htrees
    rw [← skipComma_separator] at hmore
    simpa [groupTokens, groupRead] using tree.readsGroup path _ rest _ htree ends_separator hmore

end

/-- The reader returns what it reads for the tree of a declaration. -/
theorem UseDeclaration.returns_read (declaration : UseDeclaration) :
    Returns declaration.tokens (declaration.tree.read []) := by
  obtain ⟨tree, hwf⟩ := declaration
  have hends : Ends [.semicolon] := by simp [Ends]
  have htree : ReadsTree [] (tree.tokens ++ [.semicolon]) [.semicolon] (tree.read []) := by
    cases tree with
    | name segments last renamed =>
      obtain ⟨⟨hsegments, hlast⟩, -⟩ := by simpa [UseTree.wellFormed] using hwf
      have hread : ReadsTree [] (segmentTokens segments ++ .ident last :: (aliasTokens renamed ++ [.semicolon]))
          [.semicolon] [[] ++ segments ++ [last]] := .of_name hsegments hlast hends
      simpa [UseTree.tokens, UseTree.read] using hread
    | glob segments =>
      have hread : ReadsTree [] (segmentTokens segments ++ [.star, .semicolon]) [.semicolon] [[] ++ segments] :=
        .behind hwf .star
      simpa [UseTree.tokens, UseTree.read] using hread
    | selfLeaf segments renamed => simp [UseTree.wellFormed] at hwf
    | group segments trees trailingComma =>
      obtain ⟨hsegments, htrees⟩ := by simpa [UseTree.wellFormed] using hwf
      have hgroup := groupReads trees ([] ++ segments) trailingComma [.semicolon] (by rwa [prefixed_append])
      have hread : ReadsTree [] (segmentTokens segments ++ .leftBrace :: (groupTokens trailingComma trees ++ [.semicolon]))
          [.semicolon] (groupRead ([] ++ segments) trees) := .behind hsegments (.group hgroup)
      simpa [UseTree.tokens, UseTree.read] using hread
  simpa [UseDeclaration.tokens] using Returns.use htree (.skip (by simp) .nil)

/-! ## Leaves read exactly -/

/-- Lists which do not get shorter agree together if and only if they agree each. -/
theorem append_eq_append_iff_of_le {α : Type*} {xs xs' ys ys' : List α} (hx : xs'.length ≤ xs.length)
    (hy : ys'.length ≤ ys.length) : xs ++ ys = xs' ++ ys' ↔ xs = xs' ∧ ys = ys' := by
  constructor
  · intro h
    have hlength := congrArg List.length h
    simp only [List.length_append] at hlength
    exact List.append_inj h (by omega)
  · rintro ⟨rfl, rfl⟩
    rfl

mutual

/-- Every leaf is read as one path at least. -/
theorem UseTree.length_leaves_le_read (tree : UseTree) (path : UsePath) :
    (tree.leaves path).length ≤ (tree.read path).length := by
  match tree with
  | .name _ _ _ | .glob _ => exact le_rfl
  | .selfLeaf segments renamed =>
    rw [UseTree.leaves, UseTree.read]
    split <;> simp
  | .group segments trees _ => exact length_groupLeaves_le_groupRead trees (path ++ segments)

theorem length_groupLeaves_le_groupRead (trees : List UseTree) (path : UsePath) :
    (groupLeaves path trees).length ≤ (groupRead path trees).length := by
  match trees with
  | [] => exact le_rfl
  | tree :: trees =>
    simpa [groupLeaves, groupRead] using
      Nat.add_le_add (tree.length_leaves_le_read path) (length_groupLeaves_le_groupRead trees path)

end

mutual

/-- The leaves are what is read if and only if every `self` is plain. -/
theorem UseTree.read_eq_leaves_iff (tree : UseTree) (path : UsePath) :
    tree.read path = tree.leaves path ↔ tree.selfPlain (!path.isEmpty) = true := by
  match tree with
  | .name _ _ _ | .glob _ => exact iff_of_true rfl rfl
  | .selfLeaf segments renamed =>
    rw [UseTree.leaves, UseTree.read, UseTree.selfPlain, ← prefixed_append]
    by_cases hpath : path ++ segments = []
    · simp [hpath]
    · cases renamed <;> simp [hpath]
  | .group segments trees _ =>
    rw [UseTree.leaves, UseTree.read, UseTree.selfPlain, ← prefixed_append]
    exact groupRead_eq_groupLeaves_iff trees (path ++ segments)

theorem groupRead_eq_groupLeaves_iff (trees : List UseTree) (path : UsePath) :
    groupRead path trees = groupLeaves path trees ↔ allSelfPlain (!path.isEmpty) trees = true := by
  match trees with
  | [] => exact iff_of_true rfl rfl
  | tree :: trees =>
    rw [groupRead, groupLeaves, allSelfPlain, Bool.and_eq_true, ← tree.read_eq_leaves_iff path,
      ← groupRead_eq_groupLeaves_iff trees path]
    exact append_eq_append_iff_of_le (tree.length_leaves_le_read path) (length_groupLeaves_le_groupRead trees path)

end

/-- Use trees are expanded exactly where every `self` has a path in front of it and keeps its name, and reading
stops exactly where no token of an open group is out of place. -/
theorem usePaths_expands (tokens : List Token) (declaration : UseDeclaration) :
    (Terminates tokens ↔ AllInPlace tokens) ∧
      (Returns declaration.tokens declaration.leaves ↔ declaration.selfPlain = true) := by
  refine ⟨terminates_iff, ?_⟩
  have hread := declaration.returns_read
  calc Returns declaration.tokens declaration.leaves
    _ ↔ declaration.tree.read [] = declaration.leaves :=
      ⟨hread.unique, fun heq => heq ▸ hread⟩
    _ ↔ declaration.selfPlain = true := declaration.tree.read_eq_leaves_iff []

/-- `use a::{self as b};` -/
def renamedSelf : UseDeclaration := ⟨.group ["a"] [.selfLeaf [] (some "b")] false, by decide⟩

/-- Neither half holds on every input: `use a::{r#type};` is read for ever, and the renaming of a `self` is read
as two more trees. -/
theorem usePaths_not_exact :
    (¬ Terminates (tokenize (Text.asBytes "use a::\x7br#type\x7d;"))) ∧
      Returns renamedSelf.tokens [["a"], ["a", "as"], ["a", "b"]] ∧ renamedSelf.leaves = [["a"]] ∧
      ¬ Returns renamedSelf.tokens renamedSelf.leaves := by
  have hread : Returns renamedSelf.tokens [["a"], ["a", "as"], ["a", "b"]] := ⟨9, by decide⟩
  refine ⟨?_, hread, rfl, fun hleaves => ?_⟩
  · rw [terminates_iff]
    decide +kernel
  · exact absurd (hread.unique hleaves) (by decide)

end Voicetext.Xtask
