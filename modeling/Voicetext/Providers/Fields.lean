import Voicetext.Common.JsonValue
import Voicetext.Speech.Application.BatchModels

/-!
# Fields of provider messages
-/

namespace Voicetext.Providers

open Voicetext.Common Voicetext.Speech.Application

/-- `Map::get`. -/
def get (object : List (String × Json)) (key : String) : Option Json :=
  (object.find? fun member => member.1 = key).map (·.2)

/-- An optional confidence; one which is not a finite number of the unit interval is malformed. -/
def confidenceField {ε : Type} (malformed : ε) (readF32 : NumberLiteral → Option Float32) :
    Option Json → Except ε (Option Float32)
  | none | some .null => .ok none
  | some (.number literal) =>
    match readF32 literal with
    | some confidence => if validConfidence confidence then .ok (some confidence) else .error malformed
    | none => .error malformed
  | some _ => .error malformed

/-- A provider identity which may be stored: bounded, unpadded printable ASCII. -/
def printableReference (value : String) : Option String :=
  if value ≠ "" ∧ Text.trim value = value ∧ Text.len value ≤ 128 ∧
      value.toList.all (fun c => 0x20 ≤ c.toNat && c.toNat ≤ 0x7E) then some value
  else none

/-- A text member of bounded size. -/
def textField {ε : Type} (malformed : ε) (object : List (String × Json)) (key : String) (maximum : ℕ) :
    Except ε String :=
  match get object key with
  | some (.string text) => if Text.len text ≤ maximum then .ok text else .error malformed
  | _ => .error malformed

end Voicetext.Providers
