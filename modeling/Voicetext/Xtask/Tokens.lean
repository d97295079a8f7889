import Mathlib.Data.List.TakeWhile

/-!
# Tokens of Rust sources

The architecture verifier lexes sources by hand: whitespace, comments and literals are skipped, and what is
left are identifiers and the few marks its rules look at. A source is its bytes, and one step of the lexer
takes one piece from the front of them. Nesting depths are unbounded.
-/

namespace Voicetext.Xtask

/-! ## Bytes -/

namespace Byte

abbrev newline : UInt8 := 0x0A
abbrev space : UInt8 := 0x20
abbrev bang : UInt8 := 0x21
abbrev quote : UInt8 := 0x22
abbrev pound : UInt8 := 0x23
abbrev apostrophe : UInt8 := 0x27
abbrev star : UInt8 := 0x2A
abbrev comma : UInt8 := 0x2C
abbrev slash : UInt8 := 0x2F
abbrev colon : UInt8 := 0x3A
abbrev semicolon : UInt8 := 0x3B
abbrev leftBracket : UInt8 := 0x5B
abbrev backslash : UInt8 := 0x5C
abbrev rightBracket : UInt8 := 0x5D
abbrev underscore : UInt8 := 0x5F
abbrev lowerR : UInt8 := 0x72
abbrev leftBrace : UInt8 := 0x7B
abbrev rightBrace : UInt8 := 0x7D

/-- `u8::is_ascii_whitespace`. -/
def isWhitespace (b : UInt8) : Bool := b == 0x20 || b == 0x09 || b == 0x0A || b == 0x0C || b == 0x0D

/-- `u8::is_ascii_alphabetic`. -/
def isAlphabetic (b : UInt8) : Bool := (0x41 ≤ b && b ≤ 0x5A) || (0x61 ≤ b && b ≤ 0x7A)

/-- A byte an identifier may start with. -/
def isIdentStart (b : UInt8) : Bool := isAlphabetic b || b == underscore

/-- A byte an identifier may continue with. -/
def isIdent (b : UInt8) : Bool := isIdentStart b || (0x30 ≤ b && b ≤ 0x39)

end Byte

open Byte

inductive Token
  | ident (name : String)
  | colonColon
  | leftBrace
  | rightBrace
  | leftBracket
  | rightBracket
  | pound
  | bang
  | comma
  | star
  | semicolon
  | other
deriving DecidableEq

/-! ## Skipping, from behind the opening of what is skipped -/

def skipLine (bytes : List UInt8) : List UInt8 := bytes.dropWhile (· != newline)

/-- `skip_block` at a nesting depth. -/
def skipBlock : ℕ → List UInt8 → List UInt8
  | 0, bytes => bytes
  | _ + 1, [] => []
  | _ + 1, [_] => []
  | depth + 1, b :: c :: rest =>
    if b = slash ∧ c = star then skipBlock (depth + 2) rest
    else if b = star ∧ c = slash then skipBlock depth rest
    else skipBlock (depth + 1) (c :: rest)

def skipQuoted (mark : UInt8) : List UInt8 → List UInt8
  | [] => []
  | [_] => []
  | b :: c :: rest =>
    if b = backslash then skipQuoted mark rest
    else if b = mark then c :: rest
    else skipQuoted mark (c :: rest)

/-- `raw_string_hashes`, behind the `r`. -/
def rawStringHashes : List UInt8 → Option ℕ
  | [] => none
  | b :: rest =>
    if b = pound then (rawStringHashes rest).map (· + 1)
    else if b = quote then some 0
    else none

/-- The search of `skip_raw_string` for the closing quote and its hashes. -/
def skipRawBody (hashes : ℕ) : List UInt8 → List UInt8
  | [] => []
  | b :: rest =>
    if b = quote ∧ rest.take hashes = List.replicate hashes pound then rest.drop hashes
    else skipRawBody hashes rest

/-- `skip_raw_string`, behind the `r`. -/
def skipRawString (bytes : List UInt8) : List UInt8 :=
  let hashes := (rawStringHashes bytes).getD 0
  skipRawBody hashes (bytes.drop (hashes + 1))

/-- Whether an apostrophe in front of these bytes is that of a lifetime. -/
def isLifetime (bytes : List UInt8) : Bool :=
  bytes[0]?.any isIdentStart && bytes[1]? != some apostrophe

/-! ## The lexer -/

/-- What the lexer takes a piece of a source for. -/
inductive Lexeme
  | whitespace
  | lineComment
  | blockComment
  | literal
  | token (token : Token)
deriving DecidableEq

/-- The token of a piece, unless the piece is skipped. -/
def Lexeme.token? : Lexeme → Option Token
  | .token value => some value
  | .whitespace | .lineComment | .blockComment | .literal => none

/-- Whether a piece is a comment. -/
def Lexeme.isComment : Lexeme → Bool
  | .lineComment | .blockComment => true
  | .whitespace | .literal | .token _ => false

/-- The text of an identifier, which is ASCII. -/
def identText (bytes : List UInt8) : String := String.ofList (bytes.map fun b => Char.ofNat b.toNat)

/-- The tokens of one byte. -/
def mark? (b : UInt8) : Option Token :=
  if b = leftBrace then some .leftBrace
  else if b = rightBrace then some .rightBrace
  else if b = leftBracket then some .leftBracket
  else if b = rightBracket then some .rightBracket
  else if b = pound then some .pound
  else if b = bang then some .bang
  else if b = comma then some .comma
  else if b = star then some .star
  else if b = semicolon then some .semicolon
  else none

/-- One pass through the loop of `tokenize`: the piece at the front, and what is behind it. -/
def lexStep (b : UInt8) (rest : List UInt8) : Lexeme × List UInt8 :=
  if isWhitespace b then (.whitespace, rest)
  else if b = slash ∧ rest.head? = some slash then (.lineComment, skipLine rest.tail)
  else if b = slash ∧ rest.head? = some star then (.blockComment, skipBlock 1 rest.tail)
  else if b = quote then (.literal, skipQuoted quote rest)
  else if b = apostrophe then
    if isLifetime rest then (.token .other, rest) else (.literal, skipQuoted apostrophe rest)
  else if b = lowerR ∧ (rawStringHashes rest).isSome then (.literal, skipRawString rest)
  else if b = colon ∧ rest.head? = some colon then (.token .colonColon, rest.tail)
  else match mark? b with
    | some mark => (.token mark, rest)
    | none =>
      if isIdentStart b then (.token (.ident (identText (b :: rest.takeWhile isIdent))), rest.dropWhile isIdent)
      else (.token .other, rest)

/-- A piece of a source. -/
structure Piece where
  kind : Lexeme
  text : List UInt8
deriving DecidableEq

/-- The loop of `tokenize`, for a number of passes. -/
def tokenizeLoop : ℕ → List UInt8 → List Token
  | 0, _ => []
  | _ + 1, [] => []
  | passes + 1, b :: rest =>
    match lexStep b rest with
    | (.token token, rest) => token :: tokenizeLoop passes rest
    | (_, rest) => tokenizeLoop passes rest

/-- `tokenize`: every pass takes a byte at least. -/
def tokenize (source : List UInt8) : List Token := tokenizeLoop source.length source

/-- The pieces the passes of `tokenize` take, whether or not they become tokens. -/
def piecesLoop : ℕ → List UInt8 → List Piece
  | 0, _ => []
  | _ + 1, [] => []
  | passes + 1, b :: rest =>
    let step := lexStep b rest
    ⟨step.1, b :: rest.take (rest.length - step.2.length)⟩ :: piecesLoop passes step.2

def pieces (source : List UInt8) : List Piece := piecesLoop source.length source

end Voicetext.Xtask
