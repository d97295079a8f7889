import Voicetext.Audio.CommentHeader
import Voicetext.Audio.ContainerScan
import Voicetext.Audio.OggOpus

/-!
# The validation of a complete upload

The pages of an upload are scanned, then its packets are read: the identification header, the comment header and
the audio. How packets are read from pages is the reader's own affair, and so is why it may fail.
-/

namespace Voicetext.Audio.OggOpus

open Voicetext.Common

/-- Maximum accepted decoder pre-skip, one second. -/
def MAX_PRE_SKIP_SAMPLES : ℕ := 48000

/-- `OpusHead` -/
def OPUS_HEAD_MAGIC : List UInt8 := [0x4F, 0x70, 0x75, 0x73, 0x48, 0x65, 0x61, 0x64]

section Validation

/-- A packet, with what the reader tells about its stream. -/
structure StreamPacket extends Packet where
  streamSerial : ℕ
  firstInStream : Bool

/-- The packets a reader gives, one after the other, and whether it fails behind them. -/
structure PacketReader where
  packets : List StreamPacket
  fails : Bool

/-- The next packet, which has to be there. -/
def nextPacket (reader : PacketReader) (missing : OggOpusValidationError) :
    Except OggOpusValidationError (StreamPacket × PacketReader) :=
  match reader.packets with
  | packet :: packets => .ok (packet, { reader with packets })
  | [] => .error (if reader.fails then .invalidContainer else missing)

/-- Check the identification header packet, and read its pre-skip. -/
def validateIdentificationHeader (data : List UInt8) : Checked OggOpusValidationError ℕ :=
  if data.length ≠ 19 then throw .invalidIdentificationHeader
  else do
    let magic ← Checked.slice data 0 8
    let version ← Checked.index data 8
    let channels ← Checked.index data 9
    let mapping ← Checked.index data 18
    if magic ≠ OPUS_HEAD_MAGIC ∨ version ≠ 1 ∨ ¬ (channels = 1 ∨ channels = 2) ∨ mapping ≠ 0 then
      throw .invalidIdentificationHeader
    else
      let preSkip ← Checked.slice data 10 12 >>= Checked.readLe 2
      if preSkip > MAX_PRE_SKIP_SAMPLES then throw .invalidIdentificationHeader else return preSkip

/-- Time the packets which are left. -/
def acceptPackets (getNbSamples : List UInt8 → Option ℕ) (serial : ℕ) (timing : AudioTiming) (reader : PacketReader) :
    Except OggOpusValidationError AudioTiming := do
  let timing ← reader.packets.foldlM (fun timing packet =>
    if packet.streamSerial ≠ serial ∨ packet.firstInStream = true then .error .invalidLogicalStream
    else timing.accept getNbSamples packet.toPacket) timing
  if reader.fails then .error .invalidContainer else return timing

variable (readPackets : List UInt8 → PacketReader) (getNbSamples : List UInt8 → Option ℕ)

def validateCompleteOggOpus (input : List UInt8) : Checked OggOpusValidationError ValidatedOggOpus := do
  let container ← scanContainer input
  let (head, reader) ← ExceptT.mk (some (nextPacket (readPackets input) .invalidIdentificationHeader))
  if head.streamSerial ≠ container.serial ∨ head.firstInStream = false ∨ head.firstInPage = false ∨
      head.lastInPage = false ∨ head.lastInStream = true ∨ head.absgpPage ≠ 0 then
    throw .invalidIdentificationHeader
  else
    let preSkip ← validateIdentificationHeader head.data
    let (tags, reader) ← ExceptT.mk (some (nextPacket reader .invalidCommentHeader))
    if tags.streamSerial ≠ container.serial ∨ tags.firstInStream = true ∨ tags.lastInPage = false ∨
        tags.lastInStream = true ∨ tags.absgpPage ≠ 0 then
      throw .invalidCommentHeader
    else
      validateCommentHeader tags.data
      let timing ← ExceptT.mk (some (acceptPackets getNbSamples container.serial (.new preSkip) reader))
      ExceptT.mk (some (timing.finish container.finalGranule))

end Validation

section Rules

variable {readPackets : List UInt8 → PacketReader} {getNbSamples : List UInt8 → Option ℕ} {input : List UInt8}

theorem inBounds_mk {ε α : Type} (x : Except ε α) : Checked.InBounds (ExceptT.mk (some x) : Checked ε α) := by
  cases x with
  | error e => exact Checked.inBounds_throw e
  | ok a => exact Checked.inBounds_pure a

theorem mk_eq_pure {ε α : Type} {x : Except ε α} {a : α} :
    (ExceptT.mk (some x) : Checked ε α) = pure a ↔ x = .ok a := by
  constructor
  · exact fun h => Option.some.inj h
  · rintro rfl
    rfl

theorem validateIdentificationHeader_inBounds (data : List UInt8) :
    Checked.InBounds (validateIdentificationHeader data) := by
  refine Checked.inBounds_ite (fun _ => Checked.inBounds_throw _) fun hlength => ?_
  have hbytes : data.length = 19 := not_not.mp hlength
  refine (Checked.inBounds_slice (by omega) (by omega)).bind fun magic _ => ?_
  rw [Checked.index_of_lt (by omega), Checked.index_of_lt (by omega), Checked.index_of_lt (by omega)]
  simp only [pure_bind]
  refine Checked.inBounds_ite (fun _ => Checked.inBounds_throw _) fun _ => ?_
  rw [Checked.slice_of_le (by omega) (by omega), pure_bind, Checked.readLe_of_le (by simp; omega), pure_bind]
  exact Checked.inBounds_ite (fun _ => Checked.inBounds_throw _) fun _ => Checked.inBounds_pure _

/-- The validation of an upload stays within its bytes, whatever the reader makes of them. -/
theorem validateCompleteOggOpus_inBounds :
    Checked.InBounds (validateCompleteOggOpus readPackets getNbSamples input) := by
  refine (scanContainer_inBounds input).bind fun container _ => ?_
  refine (inBounds_mk _).bind fun (head, reader) _ => ?_
  refine Checked.inBounds_ite (fun _ => Checked.inBounds_throw _) fun _ => ?_
  refine (validateIdentificationHeader_inBounds _).bind fun preSkip _ => ?_
  refine (inBounds_mk _).bind fun (tags, reader) _ => ?_
  refine Checked.inBounds_ite (fun _ => Checked.inBounds_throw _) fun _ => ?_
  refine (validateCommentHeader_inBounds tags.data).bind fun _ _ => ?_
  exact (inBounds_mk _).bind fun timing _ => inBounds_mk _

/-- The packets which are accepted are timed one after the other. -/
theorem foldlM_of_acceptPackets {serial : ℕ} {timing timed : AudioTiming} {reader : PacketReader}
    (h : acceptPackets getNbSamples serial timing reader = .ok timed) :
    (reader.packets.map StreamPacket.toPacket).foldlM (AudioTiming.accept getNbSamples) timing = .ok timed := by
  obtain ⟨last, hfold, hend⟩ := bind_eq_ok.mp h
  obtain ⟨-, hlast⟩ := ite_error_eq_ok.mp hend
  obtain rfl := Except.ok.inj hlast
  have hpackets : ∀ (packets : List StreamPacket) (timing : AudioTiming),
      packets.foldlM (fun timing packet =>
        if packet.streamSerial ≠ serial ∨ packet.firstInStream = true then .error .invalidLogicalStream
        else timing.accept getNbSamples packet.toPacket) timing = .ok last →
        (packets.map StreamPacket.toPacket).foldlM (AudioTiming.accept getNbSamples) timing = .ok last := by
    intro packets
    induction packets with
    | nil => exact fun timing h => h
    | cons packet rest ih =>
      intro timing h
      rw [List.foldlM_cons] at h
      obtain ⟨next, hnext, hrest⟩ := bind_eq_ok.mp h
      obtain ⟨-, haccepted⟩ := ite_error_eq_ok.mp hnext
      rw [List.map_cons, List.foldlM_cons, haccepted]
      exact ih next hrest
  exact hpackets _ _ hfold

/-- What a validation gives is the timing of the audio packets of the upload. -/
theorem timeAudio_of_validate {validated : ValidatedOggOpus}
    (h : validateCompleteOggOpus readPackets getNbSamples input = pure validated) :
    ∃ preSkip packets finalGranule, timeAudio getNbSamples preSkip packets finalGranule = .ok validated := by
  obtain ⟨container, -, h⟩ := Checked.bind_eq_pure.mp h
  obtain ⟨⟨head, reader⟩, -, h⟩ := Checked.bind_eq_pure.mp h
  obtain ⟨-, h⟩ := Checked.ite_throw_eq_pure.mp h
  obtain ⟨preSkip, -, h⟩ := Checked.bind_eq_pure.mp h
  obtain ⟨⟨tags, rest⟩, -, h⟩ := Checked.bind_eq_pure.mp h
  obtain ⟨-, h⟩ := Checked.ite_throw_eq_pure.mp h
  obtain ⟨_, -, h⟩ := Checked.bind_eq_pure.mp h
  obtain ⟨timing, htimed, hfinish⟩ := Checked.bind_eq_pure.mp h
  have hpackets := foldlM_of_acceptPackets (mk_eq_pure.mp htimed)
  refine ⟨preSkip, rest.packets.map StreamPacket.toPacket, container.finalGranule, ?_⟩
  rw [timeAudio, hpackets]
  exact mk_eq_pure.mp hfinish

end Rules

end Voicetext.Audio.OggOpus
