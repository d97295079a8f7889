import Mathlib.Data.List.Forall2
import Mathlib.Data.List.Perm.Basic
import Voicetext.Common.JsonPointer

/-!
# Records read from values

The members of a value are those of its document in the order of their keys, so a record is found in the
value of an object whatever order its fields were written in. A field may have an alias, and in an array
the last fields may be missing when they have a default.
-/

namespace Voicetext.Common.Json

variable {α β : Type}

def asBool : Json → Option Bool
  | .bool value => some value
  | _ => none

/-- A variant without data, by its name or as the only key of an object. -/
def asVariant (name : α → String) (variants : List α) : Json → Option α
  | .string text | .object [(text, .null)] => variants.find? fun variant => name variant = text
  | _ => none

/-- A variant is found by its name when no other has it. -/
theorem asVariant_name {name : α → String} {variants : List α} (hnames : (variants.map name).Nodup)
    {variant : α} (hmem : variant ∈ variants) :
    asVariant name variants (.string (name variant)) = some variant := by
  rw [asVariant]
  induction variants with
  | nil => cases hmem
  | cons first rest ih =>
    rw [List.map_cons, List.nodup_cons] at hnames
    cases hmem with
    | head => simp
    | tail _ hmem =>
      have hne : name first ≠ name variant := fun heq => hnames.1 (heq ▸ List.mem_map_of_mem hmem)
      rw [List.find?_cons_of_neg (by simpa using hne)]
      exact ih hnames.2 hmem

/-- The fields of a record of which all but the first few have a default. -/
def fieldsOr (names : List String) (present : ℕ) : Json → Option (List (Option Json))
  | .array items =>
    if present ≤ items.length ∧ items.length ≤ names.length then
      some (items.map some ++ List.replicate (names.length - items.length) none)
    else none
  | doc => fields names doc

/-- The members of an object under the names their aliases stand for. -/
def unalias (aliases : List (String × String)) : Json → Json
  | .object members => .object (members.map fun member => ((aliases.lookup member.1).getD member.1, member.2))
  | doc => doc

/-- A field which has a default when it is absent. -/
def defaulted (decode : Json → Option α) (default : α) : Option Json → Option α
  | none => some default
  | some doc => decode doc

section Members

theorem insertMember_perm {key : String} {value : Json} {members : List (String × Json)}
    (h : key ∉ members.map Prod.fst) : (insertMember key value members).Perm ((key, value) :: members) := by
  induction members with
  | nil => exact .refl _
  | cons member rest ih =>
    obtain ⟨k, v⟩ := member
    rw [List.map_cons, List.mem_cons, not_or] at h
    unfold insertMember
    split
    · exact .refl _
    split
    · exact absurd ‹k = key›.symm h.1
    · exact ((ih h.2).cons _).trans (.swap _ _ _)

/-- What a member with distinct keys is found by. -/
theorem find_eq_some_iff {members : List (String × Json)} (hkeys : (members.map Prod.fst).Nodup) {name : String}
    {member : String × Json} :
    members.find? (fun member => member.1 == name) = some member ↔ member ∈ members ∧ member.1 = name := by
  constructor
  · intro h
    exact ⟨List.mem_of_find?_eq_some h, by simpa using List.find?_some h⟩
  · rintro ⟨hmem, rfl⟩
    induction members with
    | nil => cases hmem
    | cons first rest ih =>
      rw [List.map_cons, List.nodup_cons] at hkeys
      rcases List.mem_cons.mp hmem with rfl | hmem
      · simp
      · have hne : first.1 ≠ member.1 := fun heq => hkeys.1 (heq ▸ List.mem_map_of_mem hmem)
        rw [List.find?_cons_of_neg (by simpa using hne), ih hkeys.2 hmem]

/-- What is found does not depend on the order of members. -/
theorem find_perm {members members' : List (String × Json)} (h : members.Perm members')
    (hkeys : (members'.map Prod.fst).Nodup) (name : String) :
    members.find? (fun member => member.1 == name) = members'.find? (fun member => member.1 == name) := by
  have hkeysPerm : (members.map Prod.fst).Perm (members'.map Prod.fst) := h.map Prod.fst
  apply Option.ext
  intro member
  rw [find_eq_some_iff (hkeysPerm.nodup_iff.mpr hkeys), find_eq_some_iff hkeys, h.mem_iff]

theorem lookup_perm {members members' : List (String × Json)} (h : members.Perm members')
    (hkeys : (members'.map Prod.fst).Nodup) (name : String) : lookup members name = lookup members' name := by
  have hfind := find_perm h hkeys name
  simp only [beq_eq_decide] at hfind
  rw [lookup, lookup, hfind]

/-- Fields do not depend on the order of members. -/
theorem fields_perm {members members' : List (String × Json)} (h : members.Perm members')
    (hkeys : (members'.map Prod.fst).Nodup) (names : List String) :
    fields names (.object members) = fields names (.object members') := by
  have hkeysPerm : (members.map Prod.fst).Perm (members'.map Prod.fst) := h.map Prod.fst
  have hnodup : (members.map Prod.fst).Nodup := hkeysPerm.nodup_iff.mpr hkeys
  have hknown : (members.all fun member => names.contains member.1) =
      members'.all fun member => names.contains member.1 := by
    rw [Bool.eq_iff_iff, List.all_eq_true, List.all_eq_true]
    exact forall_congr' fun member => imp_congr_left h.mem_iff
  simp only [fields, hknown, hkeys, hnodup, find_perm h hkeys]

end Members

section Values

variable (floats : FloatText)

/-- Members with the values of other members. -/
abbrev HaveValues (members values : List (String × Json)) : Prop :=
  List.Forall₂ (fun member value => value.1 = member.1 ∧ toValue floats member.2 = some value.2) members values

variable {floats}

theorem HaveValues.keys_eq {members values : List (String × Json)} (h : HaveValues floats members values) :
    values.map Prod.fst = members.map Prod.fst := by
  induction h with
  | nil => rfl
  | cons hvalue _ ih => rw [List.map_cons, List.map_cons, hvalue.1, ih]

/-- The value of an object with distinct keys has the values of its members, in some order. -/
theorem toValue_object {members values : List (String × Json)} (hkeys : (members.map Prod.fst).Nodup)
    (hvalues : HaveValues floats members values) :
    ∃ object, toValue floats (.object members) = some (.object object) ∧ object.Perm values := by
  have hmembers : ∃ object, toValueMembers floats members = some object ∧ object.Perm values := by
    induction hvalues with
    | nil => exact ⟨[], rfl, .refl _⟩
    | @cons member value members values hvalue hrest ih =>
      obtain ⟨key, doc⟩ := member
      obtain ⟨key', value⟩ := value
      obtain ⟨rfl, hvalue⟩ := hvalue
      rw [List.map_cons, List.nodup_cons] at hkeys
      obtain ⟨object, hobject, hperm⟩ := ih hkeys.2
      have hfresh : key' ∉ object.map Prod.fst := by
        rw [(hperm.map Prod.fst).mem_iff, HaveValues.keys_eq hrest]
        exact hkeys.1
      refine ⟨insertMember key' value object, ?_, (insertMember_perm hfresh).trans (hperm.cons _)⟩
      simp only [toValueMembers, hobject]
      simp only at hvalue
      rw [hvalue]
      rfl
  obtain ⟨object, hobject, hperm⟩ := hmembers
  exact ⟨object, by rw [toValue, hobject]; rfl, hperm⟩

/-- The value of a document, which a decoder reads. -/
def Reads (floats : FloatText) (decode : Json → Option α) (doc : Json) (a : α) : Prop :=
  ∃ value, toValue floats doc = some value ∧ decode value = some a

/-- A list is read from the value of an array when each of its elements is. -/
theorem reads_array {encode : α → Json} {decode : Json → Option β} {f : α → β} {items : List α}
    (h : ∀ item ∈ items, Reads floats decode (encode item) (f item)) :
    Reads floats (asArray decode) (.array (items.map encode)) (items.map f) := by
  have hitems : ∃ values, toValueItems floats (items.map encode) = some values ∧
      values.mapM decode = some (items.map f) := by
    induction items with
    | nil => exact ⟨[], rfl, rfl⟩
    | cons item rest ih =>
      obtain ⟨value, hvalue, hdecode⟩ := h item List.mem_cons_self
      obtain ⟨values, hvalues, hrest⟩ := ih fun other hother => h other (List.mem_cons_of_mem _ hother)
      refine ⟨value :: values, ?_, ?_⟩
      · simp [toValueItems, hvalue, hvalues]
      · simp [List.mapM_cons, hdecode, hrest]
  obtain ⟨values, hvalues, hdecode⟩ := hitems
  exact ⟨.array values, by rw [toValue, hvalues]; rfl, hdecode⟩

/-- A record is read from the value of an object when it is read from fields with the members' values. -/
theorem reads_object {members values : List (String × Json)} (hkeys : (members.map Prod.fst).Nodup)
    (hvalues : HaveValues floats members values) {decode : Json → Option α} {a : α}
    (hdecode : ∀ object, object.Perm values → decode (.object object) = some a) :
    Reads floats decode (.object members) a := by
  obtain ⟨object, hobject, hperm⟩ := toValue_object hkeys hvalues
  exact ⟨.object object, hobject, hdecode object hperm⟩

/-- A record is read when it is read from whatever has the fields of the members' values. -/
theorem reads_record {members values : List (String × Json)} (names : List String)
    (hkeys : (members.map Prod.fst).Nodup) (hvalues : HaveValues floats members values)
    {decode : Json → Option α} {a : α}
    (hdecode : ∀ object, fields names (.object object) = fields names (.object values) →
      decode (.object object) = some a) : Reads floats decode (.object members) a := by
  refine reads_object hkeys hvalues fun object hperm => hdecode object (fields_perm hperm ?_ names)
  rwa [HaveValues.keys_eq hvalues]

/-- An object which names its type is told by it, and read from whatever has its fields. -/
theorem reads_tagged {members values : List (String × Json)} (names : List String)
    (hkeys : (members.map Prod.fst).Nodup) (hvalues : HaveValues floats members values) {tag : String}
    (htag : lookup values "type" = some (.string tag)) {decode : Json → Option α} {a : α}
    (hdecode : ∀ object, fields names (.object object) = fields names (.object values) →
      decode (.object object) = some a) :
    ∃ value, toValue floats (.object members) = some value ∧
      (member "type" value).bind asString = some tag ∧ decode value = some a := by
  obtain ⟨object, hobject, hperm⟩ := toValue_object hkeys hvalues
  have hkeys : (values.map Prod.fst).Nodup := by rwa [HaveValues.keys_eq hvalues]
  have hmember : member "type" (.object object) = some (.string tag) := (lookup_perm hperm hkeys "type").trans htag
  exact ⟨.object object, hobject, by rw [hmember]; rfl, hdecode object (fields_perm hperm hkeys names)⟩

/-- A field which may be null is read when its value is not. -/
theorem optional_some {decode : Json → Option α} (hnull : decode .null = none) {value : Json} {a : α}
    (h : decode value = some a) : Json.optional decode (some value) = some (some a) := by
  unfold Json.optional
  split
  · cases ‹_›
  · rename_i heq
    rw [Option.some.inj heq, hnull] at h
    cases h
  · rename_i heq
    rw [← Option.some.inj heq, h]
    rfl

/-- A value kept by its document is read as the document is. -/
theorem Reads.of_self {doc : Json} {decode : Json → Option α} {a : α} (hvalue : toValue floats doc = some doc)
    (hdecode : decode doc = some a) : Reads floats decode doc a := ⟨doc, hvalue, hdecode⟩

@[simp] theorem toValue_ofU64 (n : UInt64) : toValue floats (.ofU64 n) = some (.ofU64 n) := by
  simp [toValue, ofU64, floats.canonical_ofU64]

@[simp] theorem toValue_string (value : String) : toValue floats (.string value) = some (.string value) := rfl

@[simp] theorem toValue_bool (value : Bool) : toValue floats (.bool value) = some (.bool value) := rfl

end Values

end Voicetext.Common.Json
