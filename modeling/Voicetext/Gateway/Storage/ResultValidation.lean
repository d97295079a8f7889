import Voicetext.Gateway.Storage.Identifiers
import Voicetext.Speech.Application.BatchModels

/-!
# Bounded validation of stored batch results

The ledger checks a result both before it is written and after it is read. Timelines, confidences and
source indices are checked as the application checks them, but each text is bounded on its own, and
speakers have a bound the application does not know.
-/

namespace Voicetext.Gateway.Storage

open Voicetext.Common Voicetext.Speech.Application

def MAX_PROVIDER_REFERENCE_BYTES : ℕ := 256

def MAX_SEGMENTS : ℕ := 10000

def MAX_TEXT_BYTES : ℕ := 4 * 1024 * 1024

def MAX_READABLE_REFERENCES : ℕ := 100000

/-- A nonempty bounded speaker without control characters. -/
def validSpeaker (speaker : String) : Bool :=
  speaker ≠ "" && Text.len speaker ≤ MAX_PROVIDER_REFERENCE_BYTES && !Text.hasControl speaker

/-- Check the segments with the running end time. -/
def validateSegments (duration : UInt64) : UInt64 → List BatchSegment → Except RecordError Unit
  | _, [] => .ok ()
  | previousEnd, segment :: rest =>
    if segment.startMillis < previousEnd ∨ segment.endMillis ≤ segment.startMillis ∨
        segment.endMillis > duration ∨ segment.text = "" ∨ Text.len segment.text > MAX_TEXT_BYTES ∨
        segment.confidence.any (fun value => !validConfidence value) ∨
        segment.speaker.any (fun speaker => !validSpeaker speaker) then .error ⟨"INVALID_RESULT"⟩
    else validateSegments duration segment.endMillis rest

/-- Check the readable segments with the running end time, and count their references. -/
def validateReadable (duration : UInt64) (segmentCount : ℕ) :
    UInt64 → ℕ → List BatchReadableSegment → Except RecordError ℕ
  | _, references, [] => .ok references
  | previousEnd, references, segment :: rest =>
    match checkedAdd references segment.sourceSegmentIndices.length with
    | none => .error ⟨"RESULT_TOO_LARGE"⟩
    | some references =>
      if segment.startMillis < previousEnd ∨ segment.endMillis ≤ segment.startMillis ∨
          segment.endMillis > duration ∨ segment.text = "" ∨ Text.len segment.text > MAX_TEXT_BYTES ∨
          validSources segmentCount segment.sourceSegmentIndices = false then .error ⟨"INVALID_RESULT"⟩
      else validateReadable duration segmentCount segment.endMillis references rest

/-- The references of a readable projection, which may be absent. -/
def validateProjection (result : BatchRecognitionResult) : Except RecordError ℕ :=
  match result.readableSegments with
  | none => .ok 0
  | some segments =>
    if segments.length > MAX_SEGMENTS then .error ⟨"RESULT_TOO_LARGE"⟩
    else validateReadable result.durationMillis result.segments.length 0 0 segments

/-- Check a result against the bounds of its stored representation. -/
def validateResult (result : BatchRecognitionResult) : Except RecordError Unit :=
  if Text.len result.text > MAX_TEXT_BYTES ∨ result.segments.length > MAX_SEGMENTS then
    .error ⟨"RESULT_TOO_LARGE"⟩
  else do
    validateSegments result.durationMillis 0 result.segments
    let references ← validateProjection result
    if references > MAX_READABLE_REFERENCES then .error ⟨"RESULT_TOO_LARGE"⟩ else .ok ()

end Voicetext.Gateway.Storage
