import Voicetext.Common.JsonReader

/-!
# Values and typed records over JSON documents

A value forgets spelling: objects are ordered by key, the last of several equal keys wins, and a
number keeps one canonical spelling. Floating-point printing and reading are a parameter. A typed
record is decoded from an object with exactly its fields, where an optional field may be absent, or
from an array of all of them in order.
-/

namespace Voicetext.Common

/-- How a JSON library spells and reads floating-point numbers. -/
structure FloatText where
  printF32 : Float32 → NumberLiteral
  readF32 : NumberLiteral → Option Float32
  printF64 : Float → NumberLiteral
  /-- The spelling a value keeps of a number; nothing when it is out of range. -/
  canonical : NumberLiteral → Option NumberLiteral
  readF32_printF32 : ∀ x : Float32, x.isFinite = true → readF32 (printF32 x) = some x
  canonical_printF32 : ∀ x : Float32, x.isFinite = true → (canonical (printF32 x)).isSome = true
  canonical_ofU64 : ∀ n, canonical (.ofU64 n) = some (.ofU64 n)
  length_printF32_le : ∀ x, (printF32 x).chars.length ≤ 24

/-- A bit pattern of a floating-point number can be checked. -/
instance decidableValid (pattern : BitVec 32) : Decidable (Float.Model.Format.binary32.Valid pattern) :=
  decidable_of_iff
    (@Float.Model.UnpackedFloat.unpackExponent .binary32 pattern = -1#_ →
      @Float.Model.UnpackedFloat.unpackMantissa .binary32 pattern ≠ 0#_ →
        pattern = Float.Model.UnpackedFloat.packedNaN .binary32)
    ⟨fun h => ⟨h⟩, fun h => h.eq_packedNaN⟩

/-- The laws can be met: a number is spelled by its bits. -/
def FloatText.bits : FloatText where
  printF32 x := .ofU64 x.toModel.toBits.toUInt64
  readF32 literal := literal.asU64.bind fun n =>
    if h : Float.Model.Format.binary32.Valid n.toUInt32.toBitVec then some ⟨⟨n.toUInt32, h⟩⟩ else none
  printF64 x := .ofU64 x.toModel.toBits
  canonical := some
  readF32_printF32 x _ := by
    have hbits : x.toModel.toBits.toUInt64.toUInt32 = x.toModel.toBits := by simp
    rw [NumberLiteral.asU64_ofU64, Option.bind_some, dif_pos (hbits.symm ▸ x.toModel.valid), Option.some.injEq]
    obtain ⟨⟨bits, valid⟩⟩ := x
    rw [Float32.ofModel.injEq, Float32.Model.mk.injEq]
    exact hbits
  canonical_printF32 _ _ := rfl
  canonical_ofU64 _ := rfl
  length_printF32_le x := by
    have hle := NumberLiteral.bytes_ofU64_le x.toModel.toBits.toUInt64
    rw [NumberLiteral.bytes_chars] at hle
    exact le_trans hle (by decide)

namespace Json

section Values

variable (floats : FloatText)

/-- Insert before the members already read: a later member of the same key stays. -/
def insertMember (key : String) (value : Json) : List (String × Json) → List (String × Json)
  | [] => [(key, value)]
  | (k, v) :: rest =>
    if key < k then (key, value) :: (k, v) :: rest
    else if k = key then (k, v) :: rest
    else (k, v) :: insertMember key value rest

mutual

/-- The value of a document. -/
def toValue : Json → Option Json
  | .null => some .null
  | .bool value => some (.bool value)
  | .number literal => (floats.canonical literal).map .number
  | .string value => some (.string value)
  | .array items => (toValueItems items).map .array
  | .object members => (toValueMembers members).map .object

def toValueItems : List Json → Option (List Json)
  | [] => some []
  | item :: rest => (toValue item).bind fun value => (toValueItems rest).map (value :: ·)

def toValueMembers : List (String × Json) → Option (List (String × Json))
  | [] => some []
  | (key, item) :: rest =>
    (toValue item).bind fun value => (toValueMembers rest).map (insertMember key value)

end

/-- Canonical spellings of one number: the two floating-point zeros are equal. -/
def sameNumber (a b : NumberLiteral) : Bool :=
  let isZero (literal : NumberLiteral) :=
    literal.chars = ['0', '.', '0'] || literal.chars = ['-', '0', '.', '0']
  a = b || (isZero a && isZero b)

mutual

/-- Equality of values. -/
def valueEq : Json → Json → Bool
  | .null, .null => true
  | .bool a, .bool b => a == b
  | .number a, .number b => sameNumber a b
  | .string a, .string b => a == b
  | .array a, .array b => valueEqItems a b
  | .object a, .object b => valueEqMembers a b
  | _, _ => false

def valueEqItems : List Json → List Json → Bool
  | [], [] => true
  | a :: as, b :: bs => valueEq a b && valueEqItems as bs
  | _, _ => false

def valueEqMembers : List (String × Json) → List (String × Json) → Bool
  | [], [] => true
  | (k, a) :: as, (l, b) :: bs => k == l && valueEq a b && valueEqMembers as bs
  | _, _ => false

end

/-- The value a text spells. -/
def parseValue (text : String) : Option Json := (parse text).bind (toValue floats)

mutual

/-- Equality of values is reflexive. -/
theorem valueEq_self : ∀ doc : Json, valueEq doc doc = true
  | .null => rfl
  | .bool value => by simp [valueEq]
  | .number literal => by simp [valueEq, sameNumber]
  | .string value => by simp [valueEq]
  | .array items => by simp [valueEq, valueEqItems_self items]
  | .object members => by simp [valueEq, valueEqMembers_self members]

theorem valueEqItems_self : ∀ items : List Json, valueEqItems items items = true
  | [] => rfl
  | item :: rest => by simp [valueEqItems, valueEq_self item, valueEqItems_self rest]

theorem valueEqMembers_self : ∀ members : List (String × Json), valueEqMembers members members = true
  | [] => rfl
  | (key, value) :: rest => by simp [valueEqMembers, valueEq_self value, valueEqMembers_self rest]

end

theorem toValueItems_isSome {items : List Json} (h : ∀ item ∈ items, (toValue floats item).isSome = true) :
    (toValueItems floats items).isSome = true := by
  induction items with
  | nil => rfl
  | cons item rest ih =>
    obtain ⟨value, hvalue⟩ := Option.isSome_iff_exists.mp (h item (List.mem_cons_self ..))
    have hrest := ih fun other hother => h other (List.mem_cons_of_mem _ hother)
    simp [toValueItems, hvalue, hrest]

theorem toValueMembers_isSome {members : List (String × Json)}
    (h : ∀ member ∈ members, (toValue floats member.2).isSome = true) :
    (toValueMembers floats members).isSome = true := by
  induction members with
  | nil => rfl
  | cons member rest ih =>
    obtain ⟨value, hvalue⟩ := Option.isSome_iff_exists.mp (h member (List.mem_cons_self ..))
    have hrest := ih fun other hother => h other (List.mem_cons_of_mem _ hother)
    simp [toValueMembers, hvalue, hrest]

end Values

section Records

variable {α : Type}

/-- The fields of a record, in order; an unknown or repeated key is refused. -/
def fields (names : List String) : Json → Option (List (Option Json))
  | .object members =>
    if (members.all fun member => names.contains member.1) ∧ (members.map (·.1)).Nodup then
      some (names.map fun name => (members.find? fun member => member.1 == name).map (·.2))
    else none
  | .array items => if items.length = names.length then some (items.map some) else none
  | _ => none

/-- A field which must be present. -/
def required (decode : Json → Option α) (field : Option Json) : Option α := field.bind decode

/-- A field which may be absent or null. -/
def optional (decode : Json → Option α) : Option Json → Option (Option α)
  | none | some .null => some none
  | some doc => (decode doc).map some

def asString : Json → Option String
  | .string value => some value
  | _ => none

def asU64 : Json → Option UInt64
  | .number literal => literal.asU64
  | _ => none

def asF32 (floats : FloatText) : Json → Option Float32
  | .number literal => floats.readF32 literal
  | _ => none

def asArray (decode : Json → Option α) : Json → Option (List α)
  | .array items => items.mapM decode
  | _ => none

def ofU64 (n : UInt64) : Json := .number (.ofU64 n)

/-- A floating-point number; null stands for one which is not finite. -/
def ofF32 (floats : FloatText) (x : Float32) : Json :=
  if x.isFinite then .number (floats.printF32 x) else .null

def ofF64 (floats : FloatText) (x : Float) : Json :=
  if x.isFinite then .number (floats.printF64 x) else .null

/-- An optional value; null stands for none. -/
def ofOption (encode : α → Json) (value : Option α) : Json := value.elim .null encode

@[simp] theorem asU64_ofU64 (n : UInt64) : asU64 (ofU64 n) = some n := by
  simp [asU64, ofU64]

/-- A finite number is read back. -/
theorem asF32_ofF32 (floats : FloatText) {x : Float32} (h : x.isFinite = true) :
    asF32 floats (ofF32 floats x) = some x := by
  rw [ofF32, if_pos h, asF32, floats.readF32_printF32 x h]

/-- A list is read back when each of its elements is. -/
theorem asArray_map {encode : α → Json} {decode : Json → Option α} {values : List α}
    (h : ∀ value ∈ values, decode (encode value) = some value) :
    asArray decode (.array (values.map encode)) = some values := by
  rw [asArray]
  induction values with
  | nil => rfl
  | cons value rest ih =>
    rw [List.map_cons, List.mapM_cons, h value (List.mem_cons_self ..),
      ih fun other hother => h other (List.mem_cons_of_mem _ hother)]
    rfl

/-- An optional value is read back when its encoding is neither null nor changed. -/
theorem optional_ofOption {encode : α → Json} {decode : Json → Option α} {value : Option α}
    (h : ∀ x ∈ value, encode x ≠ .null ∧ decode (encode x) = some x) :
    optional decode (some (ofOption encode value)) = some value := by
  cases value with
  | none => rfl
  | some x =>
    obtain ⟨hnull, hdecode⟩ := h x rfl
    rw [ofOption, Option.elim_some]
    unfold optional
    split
    · simp_all
    · simp_all
    · rename_i hdoc
      obtain rfl := Option.some.inj hdoc
      rw [hdecode]
      rfl

end Records

end Json

end Voicetext.Common
