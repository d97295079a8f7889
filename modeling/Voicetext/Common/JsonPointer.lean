import Voicetext.Common.JsonValue

/-!
# Paths into JSON values

A path descends through members of objects and elements of arrays. Editing a value at the end of a path changes
what is found there, and nothing that is found along a path which parts from it.
-/

namespace Voicetext.Common.Json

/-- `Value::as_object`. -/
def asObject : Json → Option (List (String × Json))
  | .object members => some members
  | _ => none

/-- `Value::as_array`. -/
def asItems : Json → Option (List Json)
  | .array items => some items
  | _ => none

/-- `Map::get`. -/
def lookup (members : List (String × Json)) (key : String) : Option Json :=
  (members.find? fun member => member.1 = key).map (·.2)

/-- `Value::get` with a key. -/
def member (key : String) : Json → Option Json
  | .object members => lookup members key
  | _ => none

/-- The array index a token of a path spells, without a sign or leading zeros. -/
def parseIndex (token : String) : Option ℕ :=
  if token.toList.head? = some '0' ∧ token.length ≠ 1 then none
  else if token = "" ∨ ¬ token.toList.all Char.isDigit then none
  else
    let index := Nat.ofDigitChars 10 token.toList 0
    if index < 2 ^ 64 then some index else none

/-- One step of a path. -/
def step (token : String) : Json → Option Json
  | .object members => lookup members token
  | .array items => (parseIndex token).bind fun index => items[index]?
  | _ => none

/-- `Value::pointer`, with the tokens of its path. -/
def pointer : List String → Json → Option Json
  | [], doc => some doc
  | token :: rest, doc => (step token doc).bind (pointer rest)

/-- Change the members of a key. -/
def editMembers (key : String) (edit : Json → Json) (members : List (String × Json)) : List (String × Json) :=
  members.map fun member => (member.1, if member.1 = key then edit member.2 else member.2)

/-- Change what is found at the end of a path. -/
def editAt : List String → (Json → Json) → Json → Json
  | [], edit, doc => edit doc
  | token :: rest, edit, .object members => .object (editMembers token (editAt rest edit) members)
  | token :: rest, edit, .array items =>
    .array ((parseIndex token).elim items fun index => items.modify index (editAt rest edit))
  | _ :: _, _, doc => doc

/-- The value without a member. -/
def withoutMember (key : String) : Json → Json
  | .object members => .object (members.filter fun member => member.1 ≠ key)
  | doc => doc

section Editing

variable {key other token : String} {rest path : List String} {edit : Json → Json}

@[simp] theorem lookup_editMembers (members : List (String × Json)) :
    lookup (editMembers key edit members) other =
      (lookup members other).map fun value => if other = key then edit value else value := by
  induction members with
  | nil => rfl
  | cons first rest ih =>
    simp only [lookup, editMembers, List.map_cons, List.find?_cons] at ih ⊢
    by_cases h : first.1 = other
    · simp [h]
    · simpa [h] using ih

theorem lookup_filter (h : other ≠ key) (members : List (String × Json)) :
    lookup (members.filter fun member => member.1 ≠ key) other = lookup members other := by
  rw [lookup, lookup, List.find?_filter]
  congr 2
  funext member
  by_cases hmember : member.1 = other
  · simp [hmember, h]
  · simp [hmember]

/-- A path finds the edited value at its own end. -/
theorem pointer_editAt (path : List String) (edit : Json → Json) (doc : Json) :
    pointer path (editAt path edit doc) = (pointer path doc).map edit := by
  induction path generalizing doc with
  | nil => rfl
  | cons token rest ih =>
    cases doc with
    | object members =>
      simp only [editAt, pointer, step, lookup_editMembers, if_true]
      cases lookup members token with
      | none => rfl
      | some value => exact ih value
    | array items =>
      simp only [editAt, pointer, step]
      cases hindex : parseIndex token with
      | none => simp
      | some index =>
        simp only [Option.elim_some, Option.bind_some, List.getElem?_modify]
        cases items[index]? with
        | none => rfl
        | some value => simpa using ih value
    | _ => rfl

/-- A path which parts from the edited one at a member finds what it found. -/
theorem pointer_editAt_of_ne (common : List String) (h : other ≠ token) (hindex : parseIndex token = none)
    (edit : Json → Json) (doc : Json) :
    pointer (common ++ other :: path) (editAt (common ++ token :: rest) edit doc) =
      pointer (common ++ other :: path) doc := by
  induction common generalizing doc with
  | nil =>
    cases doc with
    | object members =>
      simp only [List.nil_append, editAt, pointer, step, lookup_editMembers, if_neg h]
      cases lookup members other <;> rfl
    | array items => simp only [List.nil_append, editAt, hindex, Option.elim_none]
    | _ => rfl
  | cons first common ih =>
    cases doc with
    | object members =>
      simp only [List.cons_append, editAt, pointer, step, lookup_editMembers, if_true]
      cases lookup members first with
      | none => rfl
      | some value => exact ih value
    | array items =>
      simp only [List.cons_append, editAt, pointer, step]
      cases parseIndex first with
      | none => rfl
      | some index =>
        simp only [Option.elim_some, Option.bind_some, List.getElem?_modify]
        cases items[index]? with
        | none => rfl
        | some value => simpa using ih value
    | _ => rfl

/-- A member other than the first of the edited path stays. -/
theorem member_editAt_of_ne (h : other ≠ token) (edit : Json → Json) (doc : Json) :
    member other (editAt (token :: rest) edit doc) = member other doc := by
  cases doc with
  | object members =>
    simp only [editAt, member, lookup_editMembers, if_neg h]
    cases lookup members other <;> rfl
  | _ => rfl

end Editing

end Voicetext.Common.Json
