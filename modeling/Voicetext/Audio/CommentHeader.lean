import Voicetext.Audio.OggOpus

/-!
# The comment header accepts exactly its grammar

A comment header is a vendor and comments, each written after its own length. The walk over the lengths accepts
the packets which begin with such a header, and it never leaves the packet.
-/

namespace Voicetext.Audio.OggOpus

open Voicetext.Common

/-- A field after its length in four bytes. -/
def tagField (bytes : List UInt8) : List UInt8 := Bytes.toLe 4 bytes.length ++ bytes

/-- A vendor and comments within their bounds. -/
structure OpusTags where
  vendor : List UInt8
  comments : List (List UInt8)
  vendor_length : vendor.length ≤ 64 * 1024
  comments_length : comments.length ≤ 4096
  comment_length : ∀ comment ∈ comments, comment.length ≤ 64 * 1024

/-- The bytes of a comment header. -/
def OpusTags.encode (tags : OpusTags) : List UInt8 :=
  OPUS_TAGS_MAGIC ++ (tagField tags.vendor ++
    (Bytes.toLe 4 tags.comments.length ++ tags.comments.flatMap tagField))

section Bounds

variable (data : List UInt8) (offset : ℕ)

theorem readU32At_inBounds : Checked.InBounds (readU32At data offset) := by
  refine (Checked.inBounds_endWithin _ _ _).bind fun stop hstop => ?_
  obtain ⟨rfl, hle⟩ := Checked.endWithin_eq_pure hstop
  have hvalue : Checked.InBounds (Checked.slice data offset (offset + 4) >>= Checked.readLe 4 :
      Checked OggOpusValidationError ℕ) := by
    refine (Checked.inBounds_slice (by omega) hle).bind fun bytes hbytes => ?_
    obtain ⟨-, rfl⟩ := Checked.slice_eq_pure.mp hbytes
    exact Checked.inBounds_readLe (by simp; omega)
  exact hvalue.bind fun value _ => Checked.inBounds_pure _

theorem skipTagField_inBounds : Checked.InBounds (skipTagField data offset) := by
  have hlength : Checked.InBounds (readBoundedTagLength data offset) :=
    (readU32At_inBounds data offset).bind fun value _ =>
      Checked.inBounds_ite (fun _ => Checked.inBounds_throw _) fun _ => Checked.inBounds_pure _
  exact hlength.bind fun value _ => Checked.inBounds_endWithin _ _ _

/-- Walking the comments stays within the packet. -/
theorem skipComments_inBounds (count : ℕ) : Checked.InBounds (skipComments data count offset) := by
  induction count generalizing offset with
  | zero => exact Checked.inBounds_pure _
  | succ count ih => exact (skipTagField_inBounds data offset).bind fun next _ => ih next

theorem readCommentCount_inBounds : Checked.InBounds (readCommentCount data) := by
  refine Checked.inBounds_ite (fun _ => Checked.inBounds_throw _) fun hsize => ?_
  refine (Checked.inBounds_slice (by omega) (by omega)).bind fun magic _ => ?_
  refine Checked.inBounds_ite (fun _ => Checked.inBounds_throw _) fun _ => ?_
  refine (skipTagField_inBounds data 8).bind fun behind _ => ?_
  refine (readU32At_inBounds data behind).bind fun count _ => ?_
  exact Checked.inBounds_ite (fun _ => Checked.inBounds_throw _) fun _ => Checked.inBounds_pure _

/-- Checking the comment header stays within the packet. -/
theorem validateCommentHeader_inBounds : Checked.InBounds (validateCommentHeader data) :=
  (readCommentCount_inBounds data).bind fun first _ =>
    (skipComments_inBounds data first.2 first.1).bind fun _ _ => Checked.inBounds_pure _

end Bounds

section Iterations

/-- How often the walk over a count of comments runs its body, whatever becomes of it. -/
def skipIterations (data : List UInt8) : ℕ → ℕ → ℕ
  | 0, _ => 0
  | count + 1, offset =>
    match (skipTagField data offset).run with
    | some (.ok next) => skipIterations data count next + 1
    | _ => 1

/-- How often checking the comment header runs the body of its loop. -/
def commentIterations (data : List UInt8) : ℕ :=
  match (readCommentCount data).run with
  | some (.ok (count, offset)) => skipIterations data count offset
  | _ => 0

theorem skipIterations_le (data : List UInt8) (count offset : ℕ) : skipIterations data count offset ≤ count := by
  fun_induction skipIterations data count offset with
  | case1 offset => exact le_rfl
  | case2 offset count next hnext ih => omega
  | case3 offset count hfail => omega

/-- The loop is entered with a bounded count. -/
theorem commentIterations_le (data : List UInt8) : commentIterations data ≤ MAX_TAG_COUNT := by
  unfold commentIterations
  split
  · rename_i count offset hcount
    have hbound : count ≤ MAX_TAG_COUNT := by
      have hread : readCommentCount data = pure (count, offset) := hcount
      simp only [readCommentCount, Checked.bind_eq_pure, Checked.ite_throw_eq_pure, Checked.pure_inj] at hread
      obtain ⟨-, _, -, -, _, -, _, -, hle, heq⟩ := hread
      cases heq
      exact Nat.not_lt.mp hle
    exact (skipIterations_le data count offset).trans hbound
  · exact Nat.zero_le _

end Iterations

section Grammar

variable {data : List UInt8} {offset stop : ℕ}

/-- Two parts follow each other when the second begins behind the first. -/
theorem append_prefix_drop {first second : List UInt8} :
    first ++ second <+: data.drop offset ↔
      first <+: data.drop offset ∧ second <+: data.drop (offset + first.length) := by
  constructor
  · rintro ⟨after, hafter⟩
    rw [List.append_assoc] at hafter
    refine ⟨⟨second ++ after, hafter⟩, after, ?_⟩
    rw [← List.drop_drop, ← hafter, List.drop_left]
  · rintro ⟨⟨behind, hfirst⟩, after, hsecond⟩
    rw [← List.drop_drop, ← hfirst, List.drop_left] at hsecond
    exact ⟨after, by rw [List.append_assoc, hsecond, hfirst]⟩

theorem append_prefix_iff {first second : List UInt8} :
    first ++ second <+: data ↔ first <+: data ∧ second <+: data.drop first.length := by
  have happend : first ++ second <+: data.drop 0 ↔ _ := append_prefix_drop
  rwa [List.drop_zero, Nat.zero_add] at happend

/-- A part at an offset ends within the data. -/
theorem length_of_prefix_drop {part : List UInt8} (h : part <+: data.drop offset) (hpart : part ≠ []) :
    offset + part.length ≤ data.length := by
  have hlength := h.length_le
  have hpos := List.length_pos_iff.mpr hpart
  rw [List.length_drop] at hlength
  omega

/-- The first bytes at an offset are a part of that length. -/
theorem take_prefix_drop {count : ℕ} (h : offset + count ≤ data.length) :
    ((data.drop offset).take count).length = count ∧ (data.drop offset).take count <+: data.drop offset := by
  refine ⟨?_, List.take_prefix _ _⟩
  rw [List.length_take, List.length_drop]
  omega

/-- A number is read where it is written. -/
theorem readU32At_eq_pure (hdata : data.length ≤ U64.MAX) {value : ℕ} :
    readU32At data offset = pure (value, stop) ↔
      value < 256 ^ 4 ∧ Bytes.toLe 4 value <+: data.drop offset ∧ stop = offset + 4 := by
  simp only [readU32At, Checked.bind_eq_pure, Checked.slice_eq_pure, Checked.readLe_eq_pure, Checked.pure_inj,
    Prod.mk.injEq]
  constructor
  · rintro ⟨_, hstop, _, ⟨bytes, ⟨-, hbytes⟩, -, hvalue⟩, rfl, rfl⟩
    obtain ⟨rfl, hle⟩ := Checked.endWithin_eq_pure hstop
    rw [Nat.add_sub_cancel_left] at hbytes
    obtain ⟨hlength, hprefix⟩ := take_prefix_drop hle
    rw [hbytes] at hlength hprefix
    rw [List.take_of_length_le hlength.le] at hvalue
    rw [← hvalue]
    refine ⟨hlength ▸ Bytes.ofLe_lt bytes, ?_, rfl⟩
    have hwritten := Bytes.toLe_ofLe bytes
    rw [hlength] at hwritten
    rwa [hwritten]
  · rintro ⟨hvalue, hprefix, rfl⟩
    have hle : offset + 4 ≤ data.length := by
      have hlength := length_of_prefix_drop hprefix (List.ne_nil_of_length_pos (by simp))
      rwa [Bytes.length_toLe] at hlength
    have hbytes : (data.drop offset).take 4 = Bytes.toLe 4 value := by
      have htake := List.prefix_iff_eq_take.mp hprefix
      rw [Bytes.length_toLe] at htake
      exact htake.symm
    refine ⟨_, Checked.endWithin_of_le hdata hle, value, ⟨_, ⟨⟨by omega, hle⟩, rfl⟩, ?_⟩, rfl, rfl⟩
    rw [Nat.add_sub_cancel_left, hbytes, List.take_of_length_le (by simp)]
    exact ⟨by simp, Bytes.ofLe_toLe hvalue⟩

@[simp] theorem length_tagField (bytes : List UInt8) : (tagField bytes).length = 4 + bytes.length := by
  simp [tagField]

/-- A field is skipped where it is written. -/
theorem skipTagField_eq_pure (hdata : data.length ≤ U64.MAX) :
    skipTagField data offset = pure stop ↔
      ∃ bytes : List UInt8, bytes.length ≤ MAX_TAG_FIELD_BYTES ∧ tagField bytes <+: data.drop offset ∧
        stop = offset + (tagField bytes).length := by
  simp only [skipTagField, readBoundedTagLength, Checked.bind_eq_pure, Prod.exists, Checked.ite_throw_eq_pure,
    readU32At_eq_pure hdata, Checked.pure_inj, Prod.mk.injEq]
  constructor
  · rintro ⟨length, behind, ⟨value, _, ⟨-, hvalue, rfl⟩, hbound, rfl, rfl⟩, hstop⟩
    obtain ⟨rfl, hle⟩ := Checked.endWithin_eq_pure hstop
    obtain ⟨hlength, hbytes⟩ := take_prefix_drop hle
    refine ⟨_, hlength.trans_le (Nat.not_lt.mp hbound), append_prefix_drop.mpr ⟨?_, ?_⟩, ?_⟩
    · rw [hlength]
      exact hvalue
    · rw [Bytes.length_toLe]
      exact hbytes
    · rw [length_tagField, hlength]
      omega
  · rintro ⟨bytes, hbound, hfield, rfl⟩
    have hle := length_of_prefix_drop hfield (List.ne_nil_of_length_pos (by simp))
    rw [length_tagField] at hle
    obtain ⟨hlength, hbytes⟩ := append_prefix_drop.mp hfield
    have hvalue : bytes.length < 256 ^ 4 := hbound.trans_lt (by decide)
    refine ⟨bytes.length, offset + 4, ⟨_, _, ⟨hvalue, hlength, rfl⟩, Nat.not_lt.mpr hbound, rfl, rfl⟩, ?_⟩
    rw [Checked.endWithin_of_le hdata (by omega), length_tagField, Nat.add_assoc]

/-- A count of comments is skipped where that many are written. -/
theorem skipComments_eq_pure (hdata : data.length ≤ U64.MAX) {count : ℕ} :
    skipComments data count offset = pure stop ↔
      ∃ comments : List (List UInt8), comments.length = count ∧
        (∀ comment ∈ comments, comment.length ≤ MAX_TAG_FIELD_BYTES) ∧
        comments.flatMap tagField <+: data.drop offset ∧ stop = offset + (comments.flatMap tagField).length := by
  induction count generalizing offset with
  | zero =>
    rw [skipComments, Checked.pure_inj]
    constructor
    · rintro rfl
      exact ⟨[], rfl, by simp, List.nil_prefix, rfl⟩
    · rintro ⟨comments, hcount, -, -, rfl⟩
      obtain rfl := List.length_eq_zero_iff.mp hcount
      rfl
  | succ count ih =>
    rw [skipComments, Checked.bind_eq_pure]
    constructor
    · rintro ⟨behind, hfirst, hrest⟩
      obtain ⟨bytes, hbound, hbytes, rfl⟩ := (skipTagField_eq_pure hdata).mp hfirst
      obtain ⟨comments, rfl, hbounds, hcomments, rfl⟩ := ih.mp hrest
      refine ⟨bytes :: comments, rfl, List.forall_mem_cons.mpr ⟨hbound, hbounds⟩, ?_, ?_⟩
      · rw [List.flatMap_cons]
        exact append_prefix_drop.mpr ⟨hbytes, hcomments⟩
      · rw [List.flatMap_cons, List.length_append, Nat.add_assoc]
    · rintro ⟨comments, hcount, hbounds, hcomments, rfl⟩
      obtain ⟨bytes, comments, rfl⟩ := List.exists_cons_of_length_eq_add_one hcount
      obtain ⟨hbound, hbounds⟩ := List.forall_mem_cons.mp hbounds
      rw [List.flatMap_cons] at hcomments ⊢
      obtain ⟨hbytes, hcomments⟩ := append_prefix_drop.mp hcomments
      refine ⟨_, (skipTagField_eq_pure hdata).mpr ⟨bytes, hbound, hbytes, rfl⟩, ?_⟩
      refine ih.mpr ⟨comments, Nat.succ.inj hcount, hbounds, hcomments, ?_⟩
      rw [List.flatMap_cons, List.length_append, Nat.add_assoc]

/-- The count of comments is read behind the vendor. -/
theorem readCommentCount_eq_pure {count : ℕ} :
    readCommentCount data = pure (count, offset) ↔
      (16 ≤ data.length ∧ data.length ≤ 1024 * 1024) ∧ count ≤ MAX_TAG_COUNT ∧
        ∃ vendor : List UInt8, vendor.length ≤ MAX_TAG_FIELD_BYTES ∧
          OPUS_TAGS_MAGIC ++ (tagField vendor ++ Bytes.toLe 4 count) <+: data ∧
          offset = 8 + (tagField vendor).length + 4 := by
  have hsize : ¬ (data.length < 16 ∨ data.length > MAX_OPUS_TAGS_BYTES) ↔
      16 ≤ data.length ∧ data.length ≤ 1024 * 1024 := by
    rw [not_or, Nat.not_lt, Nat.not_lt]
    rfl
  rw [readCommentCount, Checked.ite_throw_eq_pure, hsize]
  refine and_congr_right fun hlength => ?_
  have hdata : data.length ≤ U64.MAX := hlength.2.trans (by decide)
  have hmagic {magic : List UInt8} :
      ((0 ≤ 8 ∧ 8 ≤ data.length) ∧ (data.drop 0).take (8 - 0) = magic) ↔ data.take 8 = magic :=
    and_iff_right ⟨by decide, by omega⟩
  have hparts (vendor : List UInt8) (count : ℕ) :
      OPUS_TAGS_MAGIC ++ (tagField vendor ++ Bytes.toLe 4 count) <+: data ↔
        data.take 8 = OPUS_TAGS_MAGIC ∧ tagField vendor <+: data.drop 8 ∧
          Bytes.toLe 4 count <+: data.drop (8 + (tagField vendor).length) := by
    rw [append_prefix_iff, append_prefix_drop, List.prefix_iff_eq_take, eq_comm]
    rfl
  simp only [Checked.bind_eq_pure, Checked.ite_throw_eq_pure, Checked.slice_eq_pure, hmagic, not_not, Prod.exists,
    skipTagField_eq_pure hdata, readU32At_eq_pure hdata, Checked.pure_inj, Prod.mk.injEq, hparts]
  constructor
  · rintro ⟨_, rfl, hmagic, _, ⟨vendor, hbound, hvendor, rfl⟩, _, _, ⟨-, hcount, rfl⟩, hle, rfl, rfl⟩
    exact ⟨Nat.not_lt.mp hle, vendor, hbound, ⟨hmagic, hvendor, hcount⟩, rfl⟩
  · rintro ⟨hle, vendor, hbound, ⟨hmagic, hvendor, hcount⟩, rfl⟩
    have hrange : count < 256 ^ 4 := hle.trans_lt (by decide)
    exact ⟨_, rfl, hmagic, _, ⟨vendor, hbound, hvendor, rfl⟩, count, _, ⟨hrange, hcount, rfl⟩, Nat.not_lt.mpr hle,
      rfl, rfl⟩

/-- The check passes exactly the packets of its size which begin with a comment header. It reads no index out
of bounds and runs its loop a bounded number of times. -/
theorem validateCommentHeader_exact (data : List UInt8) :
    Checked.InBounds (validateCommentHeader data) ∧ commentIterations data ≤ 4096 ∧
      (validateCommentHeader data = pure () ↔
        (16 ≤ data.length ∧ data.length ≤ 1024 * 1024) ∧ ∃ tags : OpusTags, tags.encode <+: data) := by
  refine ⟨validateCommentHeader_inBounds data, commentIterations_le data, ?_⟩
  have hcomments (vendor : List UInt8) (comments : List (List UInt8)) :
      OPUS_TAGS_MAGIC ++ (tagField vendor ++ (Bytes.toLe 4 comments.length ++ comments.flatMap tagField)) <+: data ↔
        OPUS_TAGS_MAGIC ++ (tagField vendor ++ Bytes.toLe 4 comments.length) <+: data ∧
          comments.flatMap tagField <+: data.drop (8 + (tagField vendor).length + 4) := by
    have hbehind : (OPUS_TAGS_MAGIC ++ (tagField vendor ++ Bytes.toLe 4 comments.length)).length =
        8 + (tagField vendor).length + 4 := by
      rw [List.length_append, List.length_append, Bytes.length_toLe, ← Nat.add_assoc]
      rfl
    rw [← List.append_assoc (tagField vendor), ← List.append_assoc, append_prefix_iff, hbehind]
  simp only [validateCommentHeader, Checked.bind_eq_pure, Prod.exists, readCommentCount_eq_pure]
  constructor
  · rintro ⟨count, _, ⟨hsize, hcount, vendor, hvendor, hhead, rfl⟩, _, hskip, -⟩
    obtain ⟨comments, rfl, hbounds, htail, -⟩ := (skipComments_eq_pure (hsize.2.trans (by decide))).mp hskip
    exact ⟨hsize, ⟨vendor, comments, hvendor, hcount, hbounds⟩, (hcomments vendor comments).mpr ⟨hhead, htail⟩⟩
  · rintro ⟨hsize, tags, hencode⟩
    obtain ⟨hhead, htail⟩ := (hcomments tags.vendor tags.comments).mp hencode
    have hskip := (skipComments_eq_pure (hsize.2.trans (by decide))).mpr
      ⟨tags.comments, rfl, tags.comment_length, htail, rfl⟩
    exact ⟨_, _, ⟨hsize, tags.comments_length, tags.vendor, tags.vendor_length, hhead, rfl⟩, _, hskip, trivial⟩

end Grammar

end Voicetext.Audio.OggOpus
