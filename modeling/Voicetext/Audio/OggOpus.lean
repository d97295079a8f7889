import Voicetext.Common.Checked
import Voicetext.Common.Fallible

/-!
# Strict validation of complete single-stream Ogg Opus uploads

The physical container is scanned page by page with an offset into the upload. The comment header is walked
with an offset as well, over lengths it carries itself. Packets are then timed page by page, which gives the
authoritative duration.
-/

namespace Voicetext.Audio.OggOpus

open Voicetext.Common

/-- Maximum accepted physical Ogg upload size. -/
def MAX_OGG_OPUS_BYTES : ℕ := 64 * 1024 * 1024

/-- Maximum accepted Opus comment-header packet size. -/
def MAX_OPUS_TAGS_BYTES : ℕ := 1024 * 1024

/-- Maximum accepted vendor or individual comment field size. -/
def MAX_TAG_FIELD_BYTES : ℕ := 64 * 1024

/-- Maximum accepted number of comment fields. -/
def MAX_TAG_COUNT : ℕ := 4096

/-- `b"OggS"`. -/
def CAPTURE_PATTERN : List UInt8 := [0x4F, 0x67, 0x67, 0x53]

/-- `b"OpusTags"`. -/
def OPUS_TAGS_MAGIC : List UInt8 := [0x4F, 0x70, 0x75, 0x73, 0x54, 0x61, 0x67, 0x73]

/-- `u64::MAX`. -/
def NO_GRANULE_POSITION : ℕ := U64.MAX

/-- `u32::MAX`. -/
def U32_MAX : ℕ := 2 ^ 32 - 1

/-- `u32::checked_add`. -/
def checkedAddU32 (a b : ℕ) : Option ℕ := if a + b ≤ U32_MAX then some (a + b) else none

theorem checkedAddU32_eq_some {a b c : ℕ} : checkedAddU32 a b = some c ↔ a + b ≤ U32_MAX ∧ a + b = c := by
  simp [checkedAddU32]

/-- Fail-closed validation category. -/
inductive OggOpusValidationError
  | invalidSize
  | invalidContainer
  | invalidLogicalStream
  | invalidIdentificationHeader
  | invalidCommentHeader
  | invalidAudioPacket
  | invalidGranulePosition
  | missingEndOfStream
deriving DecidableEq

section Container

structure ContainerSummary where
  serial : ℕ
  finalGranule : ℕ
deriving DecidableEq

/-- What the scan of one page reads, and the offset behind the page. -/
structure PageReading where
  flags : UInt8
  granule : ℕ
  pageSerial : ℕ
  sequence : ℕ
  segments : List UInt8
  next : ℕ

/-- The variables of the scan. -/
structure ScanState where
  offset : ℕ
  serial : Option ℕ
  expectedSequence : ℕ
  previousGranule : ℕ
  sawPosition : Bool
  finalGranule : Option ℕ

/-- The variables before the first page. -/
def ScanState.initial : ScanState := ⟨0, none, 0, 0, false, none⟩

/-- Read the page at an offset. -/
def readPage (input : List UInt8) (offset : ℕ) : Checked OggOpusValidationError PageReading := do
  let headerEnd ← Checked.endWithin input offset 27 .invalidContainer
  let header ← Checked.slice input offset headerEnd
  let capture ← Checked.slice header 0 4
  let version ← Checked.index header 4
  let flags ← Checked.index header 5
  if capture ≠ CAPTURE_PATTERN ∨ version ≠ 0 ∨ flags &&& ~~~0x07 ≠ 0 then throw .invalidContainer
  else
    let granule ← Checked.slice header 6 14 >>= Checked.readLe 8
    let pageSerial ← Checked.slice header 14 18 >>= Checked.readLe 4
    let sequence ← Checked.slice header 18 22 >>= Checked.readLe 4
    let segmentCount ← Checked.index header 26
    let tableEnd ← Checked.endWithin input headerEnd segmentCount.toNat .invalidContainer
    let segments ← Checked.slice input headerEnd tableEnd
    let bodyLen := (segments.map UInt8.toNat).sum
    let next ← Checked.endWithin input tableEnd bodyLen .invalidContainer
    return ⟨flags, granule, pageSerial, sequence, segments, next⟩

/-- The serial of the stream: the one its first page begins it with. -/
def admitSerial (page : PageReading) : Option ℕ → Except OggOpusValidationError ℕ
  | none =>
    if page.flags &&& 0x02 ≠ 0 ∧ page.flags &&& 0x01 = 0 then .ok page.pageSerial
    else .error .invalidLogicalStream
  | some value =>
    if value = page.pageSerial ∧ page.flags &&& 0x02 = 0 then .ok value else .error .invalidLogicalStream

/-- Check a page against the ones before it, and move the scan behind it. -/
def admitPage (length : ℕ) (state : ScanState) (page : PageReading) :
    Except OggOpusValidationError ScanState :=
  let hasCompletedPacket := page.segments.any fun value => value < 255
  if hasCompletedPacket = decide (page.granule = NO_GRANULE_POSITION) then .error .invalidGranulePosition
  else do
    let serial ← admitSerial page state.serial
    if page.sequence ≠ state.expectedSequence then .error .invalidContainer
    else do
      let expectedSequence ← (checkedAddU32 state.expectedSequence 1).elim (.error .invalidContainer) .ok
      if page.granule ≠ NO_GRANULE_POSITION ∧ state.sawPosition = true ∧ page.granule < state.previousGranule then
        .error .invalidGranulePosition
      else if page.flags &&& 0x04 ≠ 0 ∧ (page.next ≠ length ∨ page.granule = NO_GRANULE_POSITION) then
        .error .invalidLogicalStream
      else
        .ok
          { offset := page.next
            serial := some serial
            expectedSequence
            previousGranule :=
              if page.granule ≠ NO_GRANULE_POSITION then page.granule else state.previousGranule
            sawPosition := state.sawPosition || page.granule ≠ NO_GRANULE_POSITION
            finalGranule := if page.flags &&& 0x04 ≠ 0 then some page.granule else state.finalGranule }

/-- Scan one page. -/
def scanPage (input : List UInt8) (state : ScanState) : Checked OggOpusValidationError ScanState := do
  let page ← readPage input state.offset
  ExceptT.mk (some (admitPage input.length state page))

/-- A page which is read ends behind its header, within the upload. -/
theorem next_of_readPage {input : List UInt8} {offset : ℕ} {page : PageReading}
    (h : readPage input offset = pure page) : offset + 27 ≤ page.next ∧ page.next ≤ input.length := by
  simp only [readPage, Checked.bind_eq_pure, Checked.ite_throw_eq_pure] at h
  obtain ⟨headerEnd, hheader, _, -, _, -, _, -, _, -, -, _, -, _, -, _, -, _, -, tableEnd, htable, _, -, next,
    hnext, hpage⟩ := h
  obtain rfl := Checked.pure_inj.mp hpage
  have hheader := Checked.endWithin_eq_pure hheader
  have htable := Checked.endWithin_eq_pure htable
  have hnext := Checked.endWithin_eq_pure hnext
  dsimp only
  omega

/-- Admitting a page moves the scan behind it. -/
theorem offset_of_admitPage {length : ℕ} {state state' : ScanState} {page : PageReading}
    (h : admitPage length state page = .ok state') : state'.offset = page.next := by
  simp only [admitPage, ite_error_eq_ok, bind_eq_ok] at h
  obtain ⟨-, _, -, -, _, -, -, -, hstate⟩ := h
  cases hstate
  rfl

/-- Every page moves the scan on, within the upload. -/
theorem offset_of_scanPage {input : List UInt8} {state state' : ScanState}
    (h : scanPage input state = pure state') : state.offset < state'.offset ∧ state'.offset ≤ input.length := by
  obtain ⟨page, hread, hadmit⟩ := Checked.bind_eq_pure.mp h
  have hnext := next_of_readPage hread
  have hoffset := offset_of_admitPage (Option.some.inj hadmit)
  omega

/-- Scan pages up to the end of the upload. -/
def scanPages (input : List UInt8) (state : ScanState) : Checked OggOpusValidationError ScanState :=
  if state.offset < input.length then
    match h : (scanPage input state).run with
    | some (.ok next) =>
      have _moved := offset_of_scanPage h
      scanPages input next
    | some (.error error) => throw error
    | none => Checked.outOfBounds
  else pure state
termination_by input.length - state.offset
decreasing_by omega

/-- The serial and final granule of a container. -/
def scanContainer (input : List UInt8) : Checked OggOpusValidationError ContainerSummary :=
  if input = [] ∨ input.length > MAX_OGG_OPUS_BYTES then throw .invalidSize
  else do
    let state ← scanPages input .initial
    let serial ← state.serial.elim (throw .invalidContainer) pure
    let finalGranule ← state.finalGranule.elim (throw .missingEndOfStream) pure
    return ⟨serial, finalGranule⟩

end Container

section CommentHeader

/-- A number at an offset, and the offset behind it. -/
def readU32At (data : List UInt8) (offset : ℕ) : Checked OggOpusValidationError (ℕ × ℕ) := do
  let stop ← Checked.endWithin data offset 4 .invalidCommentHeader
  let value ← Checked.slice data offset stop >>= Checked.readLe 4
  return (value, stop)

/-- The length of a field, and the offset of its bytes. -/
def readBoundedTagLength (data : List UInt8) (offset : ℕ) : Checked OggOpusValidationError (ℕ × ℕ) := do
  let (length, offset) ← readU32At data offset
  if length > MAX_TAG_FIELD_BYTES then throw .invalidCommentHeader else return (length, offset)

/-- The offset behind the vendor, or behind one comment. -/
def skipTagField (data : List UInt8) (offset : ℕ) : Checked OggOpusValidationError ℕ := do
  let (length, offset) ← readBoundedTagLength data offset
  Checked.endWithin data offset length .invalidCommentHeader

/-- The offset behind a count of comments. -/
def skipComments (data : List UInt8) : ℕ → ℕ → Checked OggOpusValidationError ℕ
  | 0, offset => return offset
  | count + 1, offset => do
    let offset ← skipTagField data offset
    skipComments data count offset

/-- The count of comments, and the offset of the first. -/
def readCommentCount (data : List UInt8) : Checked OggOpusValidationError (ℕ × ℕ) :=
  if data.length < 16 ∨ data.length > MAX_OPUS_TAGS_BYTES then throw .invalidCommentHeader
  else do
    let magic ← Checked.slice data 0 8
    if magic ≠ OPUS_TAGS_MAGIC then throw .invalidCommentHeader
    else
      let offset ← skipTagField data 8
      let (count, offset) ← readU32At data offset
      if count > MAX_TAG_COUNT then throw .invalidCommentHeader else return (count, offset)

/-- Check the comment header packet. -/
def validateCommentHeader (data : List UInt8) : Checked OggOpusValidationError Unit := do
  let (count, offset) ← readCommentCount data
  let _ ← skipComments data count offset
  return ()

end CommentHeader

section Timing

/-- `discord_opus::SAMPLE_RATE_HZ`. -/
def SAMPLE_RATE_HZ : ℕ := 48000

/-- Maximum legal size of one self-contained Opus packet. -/
def MAX_PACKET_BYTES : ℕ := 1275

/-- Maximum samples per channel in one 120 ms Opus packet at 48 kHz. -/
def MAX_SAMPLES_PER_PACKET : ℕ := 5760

/-- Validated timing and packet metadata for one complete Ogg Opus upload. -/
structure ValidatedOggOpus where
  preSkipSamples : ℕ
  durationSamples : ℕ
  durationMillis : ℕ
  audioPacketCount : ℕ
deriving DecidableEq

/-- A packet, with what the reader tells about its page. -/
structure Packet where
  data : List UInt8
  firstInPage : Bool
  lastInPage : Bool
  lastInStream : Bool
  absgpPage : ℕ

structure AudioTiming where
  preSkip : ℕ
  packetCount : ℕ
  pageSamples : ℕ
  previousPageGranule : Option ℕ
  sawEos : Bool

def AudioTiming.new (preSkip : ℕ) : AudioTiming := ⟨preSkip, 0, 0, none, false⟩

/-- The position of a page against the one before it. -/
def AudioTiming.checkPageGranule (state : AudioTiming) (packet : Packet) : Except OggOpusValidationError Unit :=
  let granule := packet.absgpPage
  match state.previousPageGranule with
  | none =>
    if packet.lastInStream then
      if granule < state.preSkip ∨ granule > state.pageSamples then .error .invalidGranulePosition else .ok ()
    else if granule ≠ state.pageSamples then .error .invalidGranulePosition
    else .ok ()
  | some previous => do
    let maximum ← (U64.checkedAdd previous state.pageSamples).elim (.error .invalidGranulePosition) .ok
    if packet.lastInStream = true ∧ (granule ≤ previous ∨ granule > maximum) then .error .invalidGranulePosition
    else if packet.lastInStream = false ∧ granule ≠ maximum then .error .invalidGranulePosition
    else .ok ()

def AudioTiming.validatePageGranule (state : AudioTiming) (packet : Packet) :
    Except OggOpusValidationError AudioTiming :=
  if packet.absgpPage = NO_GRANULE_POSITION then .error .invalidGranulePosition
  else do
    state.checkPageGranule packet
    return { state with previousPageGranule := some packet.absgpPage }

/-- Time one packet. The count of its samples comes from `opus::packet::get_nb_samples`. -/
def AudioTiming.accept (getNbSamples : List UInt8 → Option ℕ) (state : AudioTiming) (packet : Packet) :
    Except OggOpusValidationError AudioTiming :=
  if state.sawEos = true ∨ packet.data = [] ∨ packet.data.length > MAX_PACKET_BYTES then .error .invalidAudioPacket
  else do
    let samples ← (getNbSamples packet.data).elim (.error .invalidAudioPacket) .ok
    if samples = 0 ∨ samples > MAX_SAMPLES_PER_PACKET then .error .invalidAudioPacket
    else do
      let pageSamples ← (U64.checkedAdd (if packet.firstInPage then 0 else state.pageSamples) samples).elim
        (.error .invalidGranulePosition) .ok
      let packetCount ← (checkedAddU32 state.packetCount 1).elim (.error .invalidAudioPacket) .ok
      let counted := { state with pageSamples, packetCount }
      let timed ← (if packet.lastInPage then counted.validatePageGranule packet else .ok counted)
      return { timed with sawEos := packet.lastInStream }

def AudioTiming.finish (state : AudioTiming) (finalGranule : ℕ) :
    Except OggOpusValidationError ValidatedOggOpus :=
  if state.packetCount = 0 then .error .invalidAudioPacket
  else if state.sawEos = false then .error .missingEndOfStream
  else if state.previousPageGranule ≠ some finalGranule then .error .invalidGranulePosition
  else do
    let durationSamples ← ((U64.checkedSub finalGranule state.preSkip).filter fun duration => 0 < duration).elim
      (.error .invalidGranulePosition) .ok
    let durationMillis ←
      (((U64.checkedMul durationSamples 1000).bind fun value => U64.checkedAdd value (SAMPLE_RATE_HZ - 1)).map
        fun value => value / SAMPLE_RATE_HZ).elim (.error .invalidGranulePosition) .ok
    return ⟨state.preSkip, durationSamples, durationMillis, state.packetCount⟩

/-- The timing of all audio packets of an upload. -/
def timeAudio (getNbSamples : List UInt8 → Option ℕ) (preSkip : ℕ) (packets : List Packet) (finalGranule : ℕ) :
    Except OggOpusValidationError ValidatedOggOpus := do
  let timing ← packets.foldlM (AudioTiming.accept getNbSamples) (.new preSkip)
  timing.finish finalGranule

end Timing

end Voicetext.Audio.OggOpus
