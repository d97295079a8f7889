import Voicetext.Audio.OggOpus

/-!
# Pages of an Ogg container

A page is its header, its segment table and a body of the length the table sums to. Reading at an offset
finds exactly the pages which are written there.
-/

namespace Voicetext.Audio.OggOpus

open Voicetext.Common

/-- One page, with its fields within their ranges. -/
structure Page where
  flags : UInt8
  granule : ℕ
  serial : ℕ
  sequence : ℕ
  checksum : List UInt8
  segments : List UInt8
  body : List UInt8
  flags_within : flags &&& ~~~0x07 = 0
  granule_lt : granule < 2 ^ 64
  serial_lt : serial < 2 ^ 32
  sequence_lt : sequence < 2 ^ 32
  checksum_length : checksum.length = 4
  segments_length : segments.length < 256
  body_length : body.length = (segments.map UInt8.toNat).sum

namespace Page

variable (page : Page)

/-- The 27 bytes of the header. -/
def header : List UInt8 :=
  CAPTURE_PATTERN ++ (0 :: page.flags :: (Bytes.toLe 8 page.granule ++ (Bytes.toLe 4 page.serial ++
    (Bytes.toLe 4 page.sequence ++ (page.checksum ++ [UInt8.ofNat page.segments.length])))))

/-- The bytes of a page. -/
def encode : List UInt8 := page.header ++ (page.segments ++ page.body)

/-- What the scan reads of a page, with the offset behind it. -/
def reading (next : ℕ) : PageReading :=
  ⟨page.flags, page.granule, page.serial, page.sequence, page.segments, next⟩

@[simp] theorem length_header : page.header.length = 27 := by
  simp [header, CAPTURE_PATTERN, page.checksum_length]

theorem length_encode : page.encode.length = 27 + page.segments.length + page.body.length := by
  simp [encode, Nat.add_assoc]

end Page

/-- A part in the middle of bytes. -/
theorem slice_append (ε : Type) (before part after : List UInt8) :
    (Checked.slice (before ++ (part ++ after)) before.length (before.length + part.length) : Checked ε _) =
      pure part := by
  rw [Checked.slice_of_le (Nat.le_add_right _ _) (by simp)]
  simp

/-- The fields of a header are read from their places. -/
theorem read_header (page : Page) :
    (Checked.slice page.header 0 4 : Checked OggOpusValidationError _) = pure CAPTURE_PATTERN ∧
      (Checked.index page.header 4 : Checked OggOpusValidationError _) = pure 0 ∧
      (Checked.index page.header 5 : Checked OggOpusValidationError _) = pure page.flags ∧
      (Checked.slice page.header 6 14 >>= Checked.readLe 8 : Checked OggOpusValidationError _) =
        pure page.granule ∧
      (Checked.slice page.header 14 18 >>= Checked.readLe 4 : Checked OggOpusValidationError _) =
        pure page.serial ∧
      (Checked.slice page.header 18 22 >>= Checked.readLe 4 : Checked OggOpusValidationError _) =
        pure page.sequence ∧
      (Checked.index page.header 26 : Checked OggOpusValidationError _) =
        pure (UInt8.ofNat page.segments.length) := by
  have hnumber (count n : ℕ) (before after : List UInt8) (hn : n < 256 ^ count)
      (hheader : page.header = before ++ (Bytes.toLe count n ++ after)) :
      (Checked.slice page.header before.length (before.length + count) >>= Checked.readLe count :
        Checked OggOpusValidationError _) = pure n := by
    have hslice := slice_append OggOpusValidationError before (Bytes.toLe count n) after
    rw [Bytes.length_toLe] at hslice
    rw [hheader, hslice, pure_bind, Checked.readLe_of_le (by simp), List.take_of_length_le (by simp),
      Bytes.ofLe_toLe hn]
  have hchecksum := page.checksum_length
  refine ⟨rfl, rfl, rfl, ?_, ?_, ?_, ?_⟩
  · exact hnumber 8 page.granule (CAPTURE_PATTERN ++ [0, page.flags])
      (Bytes.toLe 4 page.serial ++ (Bytes.toLe 4 page.sequence ++
        (page.checksum ++ [UInt8.ofNat page.segments.length]))) page.granule_lt rfl
  · exact hnumber 4 page.serial (CAPTURE_PATTERN ++ 0 :: page.flags :: Bytes.toLe 8 page.granule)
      (Bytes.toLe 4 page.sequence ++ (page.checksum ++ [UInt8.ofNat page.segments.length])) page.serial_lt
      (by simp [Page.header])
  · exact hnumber 4 page.sequence
      (CAPTURE_PATTERN ++ 0 :: page.flags :: (Bytes.toLe 8 page.granule ++ Bytes.toLe 4 page.serial))
      (page.checksum ++ [UInt8.ofNat page.segments.length]) page.sequence_lt (by simp [Page.header])
  · rw [Checked.index_eq_pure]
    simp [Page.header, CAPTURE_PATTERN, hchecksum]

/-- A page which is written is read. -/
theorem readPage_encode {input : List UInt8} (hinput : input.length ≤ U64.MAX) (page : Page)
    {before after : List UInt8} (hpage : input = before ++ (page.encode ++ after)) :
    readPage input before.length = pure (page.reading (before.length + page.encode.length)) := by
  have hlength : input.length = before.length + page.encode.length + after.length := by
    rw [hpage]
    simp [Nat.add_assoc]
  rw [page.length_encode] at hlength
  have hcount : (UInt8.ofNat page.segments.length).toNat = page.segments.length :=
    UInt8.toNat_ofNat_of_lt' page.segments_length
  obtain ⟨hcapture, hversion, hflags, hgranule, hserial, hsequence, hsegmentCount⟩ := read_header page
  have hheader : (Checked.slice input before.length (before.length + 27) : Checked OggOpusValidationError _) =
      pure page.header := by
    have hslice := slice_append OggOpusValidationError before page.header
      (page.segments ++ page.body ++ after)
    rwa [page.length_header, ← List.append_assoc page.header, ← Page.encode, ← hpage] at hslice
  have hsegments : (Checked.slice input (before.length + 27) (before.length + 27 + page.segments.length) :
      Checked OggOpusValidationError _) = pure page.segments := by
    have hslice := slice_append OggOpusValidationError (before ++ page.header) page.segments
      (page.body ++ after)
    have hparts : before ++ page.header ++ (page.segments ++ (page.body ++ after)) = input := by
      rw [hpage, Page.encode]
      simp
    rwa [hparts, List.length_append, page.length_header] at hslice
  unfold readPage
  rw [Checked.endWithin_of_le hinput (by omega), pure_bind, hheader, pure_bind, hcapture, pure_bind, hversion,
    pure_bind, hflags, pure_bind, if_neg (by simp [page.flags_within]), hgranule, pure_bind, hserial, pure_bind,
    hsequence, pure_bind, hsegmentCount, pure_bind, hcount, Checked.endWithin_of_le hinput (by omega), pure_bind,
    hsegments, pure_bind]
  dsimp only
  rw [← page.body_length, Checked.endWithin_of_le hinput (by omega), pure_bind, page.length_encode]
  simp only [Page.reading, Nat.add_assoc]

/-- A byte of a list and the bytes behind it. -/
theorem drop_eq_cons {bytes : List UInt8} {i : ℕ} {byte : UInt8} (h : bytes[i]? = some byte) :
    bytes.drop i = byte :: bytes.drop (i + 1) := by
  obtain ⟨hi, rfl⟩ := List.getElem?_eq_some_iff.mp h
  exact List.drop_eq_getElem_cons hi

/-- Some bytes of a list and the bytes behind them. -/
theorem drop_eq_append (bytes : List UInt8) (i count : ℕ) :
    bytes.drop i = (bytes.drop i).take count ++ bytes.drop (i + count) := by
  rw [← List.drop_drop, List.take_append_drop]

/-- What is read is a page which is written there. -/
theorem page_of_readPage {input : List UInt8} {offset : ℕ} {reading : PageReading}
    (h : readPage input offset = pure reading) :
    ∃ (page : Page) (after : List UInt8), input.drop offset = page.encode ++ after ∧
      reading = page.reading (offset + page.encode.length) := by
  simp only [readPage, Checked.bind_eq_pure, Checked.ite_throw_eq_pure, Checked.slice_eq_pure,
    Checked.index_eq_pure, Checked.readLe_eq_pure] at h
  obtain ⟨headerEnd, hheaderEnd, header, ⟨-, hheader⟩, capture, ⟨-, hcapture⟩, version, hversion, flags, hflags,
    hgood, granule, ⟨granuleBytes, ⟨-, hgranuleBytes⟩, hgranule⟩, serial, ⟨serialBytes, ⟨-, hserialBytes⟩, hserial⟩,
    sequence, ⟨sequenceBytes, ⟨-, hsequenceBytes⟩, hsequence⟩, segmentCount, hsegmentCount, tableEnd, htableEnd,
    segments, ⟨-, hsegments⟩, next, hnext, hreading⟩ := h
  obtain ⟨rfl, hheaderLe⟩ := Checked.endWithin_eq_pure hheaderEnd
  obtain ⟨rfl, htableLe⟩ := Checked.endWithin_eq_pure htableEnd
  obtain ⟨rfl, hnextLe⟩ := Checked.endWithin_eq_pure hnext
  simp only [not_or, not_not] at hgood
  obtain ⟨rfl, rfl, hflagsWithin⟩ := hgood
  have hlength : header.length = 27 := by
    rw [← hheader]
    simp
    omega
  -- the numbers are spelled by the bytes they are read from
  have hnumber {count n : ℕ} {bytes : List UInt8} (hbytes : bytes.length = count)
      (hn : Bytes.ofLe (bytes.take count) = n) : n < 256 ^ count ∧ Bytes.toLe count n = bytes := by
    rw [List.take_of_length_le hbytes.le] at hn
    subst hn hbytes
    exact ⟨Bytes.ofLe_lt bytes, Bytes.toLe_ofLe bytes⟩
  obtain ⟨hgranuleLt, hgranule⟩ := hnumber (by rw [← hgranuleBytes]; simp [hlength]) hgranule.2
  obtain ⟨hserialLt, hserial⟩ := hnumber (by rw [← hserialBytes]; simp [hlength]) hserial.2
  obtain ⟨hsequenceLt, hsequence⟩ := hnumber (by rw [← hsequenceBytes]; simp [hlength]) hsequence.2
  have hsegmentsLength : segments.length = segmentCount.toNat := by
    rw [← hsegments]
    simp
    omega
  let body := (input.drop (offset + 27 + segmentCount.toNat)).take (segments.map UInt8.toNat).sum
  let page : Page :=
    { flags, granule, serial, sequence
      checksum := (header.drop 22).take 4
      segments
      body
      flags_within := hflagsWithin
      granule_lt := hgranuleLt
      serial_lt := hserialLt
      sequence_lt := hsequenceLt
      checksum_length := by simp [hlength]
      segments_length := hsegmentsLength ▸ segmentCount.toNat_lt
      body_length := by simp [body]; omega }
  have hcount : UInt8.ofNat segments.length = segmentCount := by rw [hsegmentsLength, UInt8.ofNat_toNat]
  have hpageHeader : page.header = header := by
    have hlast : header.drop 27 = [] := List.drop_eq_nil_of_le hlength.le
    calc page.header
        = header.take 4 ++ header.drop 4 := by
          rw [drop_eq_cons hversion, drop_eq_cons hflags, drop_eq_append header 6 8, drop_eq_append header 14 4,
            drop_eq_append header 18 4, drop_eq_append header 22 4, drop_eq_cons hsegmentCount, hlast,
            hgranuleBytes, hserialBytes, hsequenceBytes]
          rw [show header.take 4 = CAPTURE_PATTERN by simpa using hcapture]
          simp only [Page.header, page, hgranule, hserial, hsequence, hcount]
      _ = header := List.take_append_drop 4 header
  have hencode : input.drop offset =
      page.encode ++ input.drop (offset + 27 + segmentCount.toNat + (segments.map UInt8.toNat).sum) := by
    rw [Page.encode, hpageHeader, drop_eq_append input offset 27,
      drop_eq_append input (offset + 27) segmentCount.toNat,
      drop_eq_append input (offset + 27 + segmentCount.toNat) (segments.map UInt8.toNat).sum]
    rw [show (input.drop offset).take 27 = header by simpa using hheader,
      show (input.drop (offset + 27)).take segmentCount.toNat = segments by simpa using hsegments]
    simp [page, body]
  refine ⟨page, _, hencode, ?_⟩
  obtain rfl := Checked.pure_inj.mp hreading
  have hbodyLength : page.body.length = (segments.map UInt8.toNat).sum := page.body_length
  have hnextEq : offset + page.encode.length =
      offset + 27 + segmentCount.toNat + (segments.map UInt8.toNat).sum := by
    rw [page.length_encode, hbodyLength, ← hsegmentsLength]
    simp only [page]
    omega
  rw [hnextEq]
  rfl

end Voicetext.Audio.OggOpus
