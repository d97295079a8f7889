import Mathlib.Algebra.GroupWithZero.Nat
import Mathlib.Algebra.Order.BigOperators.Group.List
import Mathlib.Algebra.Order.Floor.Div
import Mathlib.Data.List.Chain
import Mathlib.GroupTheory.GroupAction.Ring
import Voicetext.Audio.OggOpus

/-!
# The playable duration of an upload is exact

Pages of audio packets are timed from zero: every page but the last ends where its samples do, and the last one
may trim its own. The timing accepts exactly these positions, and no sum it forms leaves its range.
-/

namespace Voicetext.Audio.OggOpus

open Voicetext.Common

variable (getNbSamples : List UInt8 → Option ℕ)

/-- An Opus packet of legal size, with the count of its samples. -/
structure AudioPacket where
  data : List UInt8
  samples : ℕ
  nonempty : data ≠ []
  data_length : data.length ≤ MAX_PACKET_BYTES
  counted : getNbSamples data = some samples
  samples_pos : 1 ≤ samples
  samples_le : samples ≤ 5760

/-- The audio packets of one page, with its granule position. -/
structure AudioPage where
  packets : List (AudioPacket getNbSamples)
  granule : ℕ
  nonempty : packets ≠ []
  granule_lt : granule < 2 ^ 64

variable {getNbSamples}

/-- The samples of all packets. -/
def samplesOf (packets : List (AudioPacket getNbSamples)) : ℕ := (packets.map AudioPacket.samples).sum

/-- The packets of all pages. -/
def audioPackets (pages : List (AudioPage getNbSamples)) : List (AudioPacket getNbSamples) :=
  pages.flatMap AudioPage.packets

/-- The total samples of all pages. -/
def totalSamples (pages : List (AudioPage getNbSamples)) : ℕ := samplesOf (audioPackets pages)

/-- Packets of one page as the reader gives them, told whether the first begins its page. -/
def readPackets (granule : ℕ) (endsStream : Bool) : Bool → List (AudioPacket getNbSamples) → List Packet
  | _, [] => []
  | first, packet :: rest =>
    ⟨packet.data, first, rest.isEmpty, rest.isEmpty && endsStream, granule⟩ ::
      readPackets granule endsStream false rest

/-- The packets of all pages as the reader gives them: the last packet of the last page ends the stream. -/
def readPages : List (AudioPage getNbSamples) → List Packet
  | [] => []
  | page :: rest => readPackets page.granule rest.isEmpty true page.packets ++ readPages rest

/-- The pages of a stream whose positions are exact, up to the one which ends it. -/
structure ExactGranules (preSkip : ℕ) (pages : List (AudioPage getNbSamples)) (finalGranule : ℕ) : Prop where
  earlier : ∀ i (page : AudioPage getNbSamples), pages[i]? = some page → i + 1 < pages.length →
    page.granule = totalSamples (pages.take (i + 1))
  last : ∃ page, pages.getLast? = some page ∧ page.granule = finalGranule
  single : pages.length = 1 → preSkip ≤ finalGranule
  several : pages.length ≠ 1 → totalSamples pages.dropLast < finalGranule
  within : finalGranule ≤ totalSamples pages
  playable : preSkip < finalGranule

section Positions

/-- A page may follow the position of the one before it. -/
def Follows (preSkip : ℕ) (previous : Option ℕ) (pageSamples granule : ℕ) : Bool → Prop
  | true => previous.elim (preSkip ≤ granule) (· < granule) ∧ granule ≤ previous.getD 0 + pageSamples
  | false => granule = previous.getD 0 + pageSamples

variable {state state' : AudioTiming}

/-- The position of a page is checked against the one before it. -/
theorem validatePageGranule_eq_ok {packet : Packet}
    (hfits : state.previousPageGranule.getD 0 + state.pageSamples < U64.MAX) :
    state.validatePageGranule packet = .ok state' ↔
      Follows state.preSkip state.previousPageGranule state.pageSamples packet.absgpPage packet.lastInStream ∧
        state' = { state with previousPageGranule := some packet.absgpPage } := by
  have hcheck : state.checkPageGranule packet = .ok () ↔
      Follows state.preSkip state.previousPageGranule state.pageSamples packet.absgpPage packet.lastInStream := by
    unfold AudioTiming.checkPageGranule
    cases hprevious : state.previousPageGranule with
    | none => cases packet.lastInStream <;> simp [Follows]
    | some previous =>
      rw [hprevious, Option.getD_some] at hfits
      have hmaximum : U64.checkedAdd previous state.pageSamples = some (previous + state.pageSamples) :=
        U64.checkedAdd_of_le hfits.le
      cases packet.lastInStream <;> simp [Follows, hmaximum, bind, Except.bind]
  have hposition (h : Follows state.preSkip state.previousPageGranule state.pageSamples packet.absgpPage
      packet.lastInStream) : packet.absgpPage ≠ NO_GRANULE_POSITION := by
    have hle : packet.absgpPage ≤ state.previousPageGranule.getD 0 + state.pageSamples := by
      cases hlast : packet.lastInStream <;> rw [hlast] at h
      · exact h.le
      · exact h.2
    exact (hle.trans_lt hfits).ne
  rw [AudioTiming.validatePageGranule, ite_error_eq_ok, check_bind_eq_ok, hcheck]
  constructor
  · rintro ⟨-, hfollows, hstate⟩
    cases hstate
    exact ⟨hfollows, rfl⟩
  · rintro ⟨hfollows, rfl⟩
    exact ⟨hposition hfollows, hfollows, rfl⟩

/-- The timing with the samples of one more packet. -/
def AudioTiming.count (state : AudioTiming) (first : Bool) (samples : ℕ) : AudioTiming :=
  { state with
    pageSamples := (if first then 0 else state.pageSamples) + samples
    packetCount := state.packetCount + 1 }

/-- A legal packet is counted, and its page is checked behind its last packet. -/
theorem accept_eq (packet : AudioPacket getNbSamples) {first last endsStream : Bool} {granule : ℕ}
    (heos : state.sawEos = false) (hcount : state.packetCount + 1 ≤ U32_MAX)
    (hfits : (if first then 0 else state.pageSamples) + packet.samples ≤ U64.MAX) :
    state.accept getNbSamples ⟨packet.data, first, last, endsStream, granule⟩ = do
      let timed ← (if last then
          (state.count first packet.samples).validatePageGranule ⟨packet.data, first, last, endsStream, granule⟩
        else .ok (state.count first packet.samples))
      return { timed with sawEos := endsStream } := by
  have hlegal : ¬ (state.sawEos = true ∨ packet.data = [] ∨ packet.data.length > MAX_PACKET_BYTES) := by
    simp [heos, packet.nonempty, packet.data_length]
  have hsamples : ¬ (packet.samples = 0 ∨ packet.samples > MAX_SAMPLES_PER_PACKET) := by
    have hpos := packet.samples_pos
    have hle := packet.samples_le
    unfold MAX_SAMPLES_PER_PACKET
    omega
  have hadd : checkedAddU32 state.packetCount 1 = some (state.packetCount + 1) := if_pos hcount
  simp only [AudioTiming.accept, if_neg hlegal, packet.counted, U64.checkedAdd_of_le hfits, hadd, Option.elim_some,
    ok_bind, if_neg hsamples]
  rfl

/-- The packets of a page are counted, and the page is checked against the position before it. -/
theorem foldlM_readPackets_eq_ok {packets : List (AudioPacket getNbSamples)} {first endsStream : Bool}
    {granule : ℕ} (hpackets : packets ≠ []) (heos : state.sawEos = false)
    (hcount : state.packetCount + packets.length ≤ U32_MAX)
    (hfits : state.previousPageGranule.getD 0 + ((if first then 0 else state.pageSamples) + samplesOf packets) <
      U64.MAX) :
    (readPackets granule endsStream first packets).foldlM (AudioTiming.accept getNbSamples) state = .ok state' ↔
      Follows state.preSkip state.previousPageGranule
          ((if first then 0 else state.pageSamples) + samplesOf packets) granule endsStream ∧
        state' = ⟨state.preSkip, state.packetCount + packets.length,
          (if first then 0 else state.pageSamples) + samplesOf packets, some granule, endsStream⟩ := by
  induction packets generalizing state first with
  | nil => exact absurd rfl hpackets
  | cons packet rest ih =>
    have hsamples : samplesOf (packet :: rest) = packet.samples + samplesOf rest := by simp [samplesOf]
    rw [hsamples, ← Nat.add_assoc (if first then 0 else state.pageSamples)] at hfits ⊢
    rw [List.length_cons] at hcount ⊢
    rw [readPackets, List.foldlM_cons, accept_eq packet heos (by omega) (by omega)]
    cases rest with
    | nil =>
      -- the page ends here
      have hposition : (state.count first packet.samples).previousPageGranule.getD 0 +
          (state.count first packet.samples).pageSamples < U64.MAX := hfits
      simp only [readPackets, List.isEmpty_nil, List.foldlM_nil, bind_pure, bind_eq_ok, if_true, Bool.true_and,
        validatePageGranule_eq_ok hposition]
      constructor
      · rintro ⟨_, ⟨hfollows, rfl⟩, hstate⟩
        cases hstate
        exact ⟨hfollows, rfl⟩
      · rintro ⟨hfollows, rfl⟩
        exact ⟨_, ⟨hfollows, rfl⟩, rfl⟩
    | cons next rest =>
      let counted := state.count first packet.samples
      have hstate : { counted with sawEos := false } = counted := by
        rw [← heos]
        rfl
      have hlength : counted.packetCount + (next :: rest).length ≤ U32_MAX := by
        change state.packetCount + 1 + _ ≤ U32_MAX
        omega
      have hrest : (readPackets granule endsStream false (next :: rest)).foldlM (AudioTiming.accept getNbSamples)
          counted = .ok state' ↔ _ :=
        ih (List.cons_ne_nil next rest) heos hlength hfits
      simp only [List.isEmpty_cons, Bool.false_eq_true, if_false, Bool.false_and, ok_bind, pure_bind]
      rw [hstate, hrest]
      simp [counted, AudioTiming.count, Nat.add_assoc, Nat.add_comm]

/-- Every page follows the position of the one before it. -/
def FollowAll (preSkip : ℕ) : Option ℕ → List (AudioPage getNbSamples) → Prop
  | _, [] => True
  | previous, page :: rest =>
    Follows preSkip previous (samplesOf page.packets) page.granule rest.isEmpty ∧
      FollowAll preSkip (some page.granule) rest

/-- All pages are timed exactly when every one follows the one before it. -/
theorem foldlM_readPages_eq_ok {pages : List (AudioPage getNbSamples)} (hpages : pages ≠ [])
    (heos : state.sawEos = false) (hcount : state.packetCount + (audioPackets pages).length ≤ U32_MAX)
    (hfits : state.previousPageGranule.getD 0 + totalSamples pages < U64.MAX) :
    (readPages pages).foldlM (AudioTiming.accept getNbSamples) state = .ok state' ↔
      FollowAll state.preSkip state.previousPageGranule pages ∧
        state' = ⟨state.preSkip, state.packetCount + (audioPackets pages).length,
          samplesOf (pages.getLast hpages).packets, some (pages.getLast hpages).granule, true⟩ := by
  induction pages generalizing state with
  | nil => exact absurd rfl hpages
  | cons page rest ih =>
    have htotal : totalSamples (page :: rest) = samplesOf page.packets + totalSamples rest := by
      simp [totalSamples, audioPackets, samplesOf]
    have hlength : (audioPackets (page :: rest)).length = page.packets.length + (audioPackets rest).length := by
      simp [audioPackets]
    rw [htotal] at hfits
    rw [hlength] at hcount ⊢
    rw [readPages, List.foldlM_append, bind_eq_ok]
    have hpage {final : AudioTiming} : (readPackets page.granule rest.isEmpty true page.packets).foldlM
        (AudioTiming.accept getNbSamples) state = .ok final ↔ _ :=
      foldlM_readPackets_eq_ok page.nonempty heos (by omega) (by simp only [if_true]; omega)
    simp only [hpage, if_true, Nat.zero_add, FollowAll]
    cases rest with
    | nil =>
      constructor
      · rintro ⟨_, ⟨hfollows, rfl⟩, hfinal⟩
        cases hfinal
        exact ⟨⟨hfollows, trivial⟩, rfl⟩
      · rintro ⟨⟨hfollows, -⟩, rfl⟩
        exact ⟨_, ⟨hfollows, rfl⟩, rfl⟩
    | cons next rest =>
      let middle : AudioTiming :=
        ⟨state.preSkip, state.packetCount + page.packets.length, samplesOf page.packets, some page.granule, false⟩
      have hcountMiddle : middle.packetCount + (audioPackets (next :: rest)).length ≤ U32_MAX := by
        rw [← Nat.add_assoc] at hcount
        exact hcount
      have hfitsMiddle (hfollows : page.granule = state.previousPageGranule.getD 0 + samplesOf page.packets) :
          middle.previousPageGranule.getD 0 + totalSamples (next :: rest) < U64.MAX := by
        rw [← Nat.add_assoc, ← hfollows] at hfits
        exact hfits
      have hrest (hfollows) := @ih middle (List.cons_ne_nil next rest) rfl hcountMiddle (hfitsMiddle hfollows)
      rw [List.getLast_cons (List.cons_ne_nil next rest), ← Nat.add_assoc]
      constructor
      · rintro ⟨_, ⟨hfollows, rfl⟩, hfold⟩
        obtain ⟨hall, hfinal⟩ := (hrest hfollows).mp hfold
        exact ⟨⟨hfollows, hall⟩, hfinal⟩
      · rintro ⟨⟨hfollows, hall⟩, hfinal⟩
        exact ⟨middle, ⟨hfollows, rfl⟩, (hrest hfollows).mpr ⟨hall, hfinal⟩⟩

/-- Behind a first page, following means exact positions. -/
theorem followAll_some {preSkip before : ℕ} {pages : List (AudioPage getNbSamples)} (hpages : pages ≠ []) :
    FollowAll preSkip (some before) pages ↔
      (∀ i (page : AudioPage getNbSamples), pages[i]? = some page → i + 1 < pages.length →
        page.granule = before + totalSamples (pages.take (i + 1))) ∧
      before + totalSamples pages.dropLast < (pages.getLast hpages).granule ∧
      (pages.getLast hpages).granule ≤ before + totalSamples pages := by
  induction pages generalizing before with
  | nil => exact absurd rfl hpages
  | cons page rest ih =>
    cases rest with
    | nil => simp [FollowAll, Follows, totalSamples, audioPackets, samplesOf]
    | cons next rest =>
      have htotal (rest : List (AudioPage getNbSamples)) :
          before + totalSamples (page :: rest) = before + samplesOf page.packets + totalSamples rest := by
        simp [totalSamples, audioPackets, samplesOf, Nat.add_assoc]
      have hfollows : Follows preSkip (some before) (samplesOf page.packets) page.granule false ↔
          page.granule = before + samplesOf page.packets := Iff.rfl
      rw [FollowAll, List.isEmpty_cons, hfollows, List.getLast_cons (List.cons_ne_nil next rest),
        List.dropLast_cons_of_ne_nil (List.cons_ne_nil next rest), htotal, htotal]
      constructor
      · rintro ⟨hgranule, hrest⟩
        rw [hgranule, ih (List.cons_ne_nil next rest)] at hrest
        refine ⟨fun i other hother hlt => ?_, hrest.2⟩
        cases i with
        | zero =>
          cases hother
          simpa [totalSamples, audioPackets] using hgranule
        | succ i =>
          rw [List.take_succ_cons, htotal]
          exact hrest.1 i other hother (Nat.lt_of_succ_lt_succ hlt)
      · rintro ⟨hearlier, hlast⟩
        have hgranule : page.granule = before + samplesOf page.packets := by
          have hfirst := hearlier 0 page rfl (by simp)
          simpa [totalSamples, audioPackets] using hfirst
        refine ⟨hgranule, ?_⟩
        rw [hgranule, ih (List.cons_ne_nil next rest)]
        refine ⟨fun i other hother hlt => ?_, hlast⟩
        have hnext := hearlier (i + 1) other hother (Nat.succ_lt_succ hlt)
        rwa [List.take_succ_cons, htotal] at hnext

/-- From the first page on, following means exact positions. -/
theorem followAll_none {preSkip granule : ℕ} {pages : List (AudioPage getNbSamples)} (hpages : pages ≠ []) :
    (FollowAll preSkip none pages ∧ (pages.getLast hpages).granule = granule ∧ preSkip < granule) ↔
      ExactGranules preSkip pages granule := by
  have hlast : pages.getLast? = some (pages.getLast hpages) := List.getLast?_eq_some_getLast hpages
  by_cases hsingle : pages.length = 1
  · obtain ⟨page, rfl⟩ := List.length_eq_one_iff.mp hsingle
    have htotal : totalSamples [page] = samplesOf page.packets := by simp [totalSamples, audioPackets]
    have hfollows : FollowAll preSkip none [page] ↔
        (preSkip ≤ page.granule ∧ page.granule ≤ 0 + samplesOf page.packets) ∧ True := Iff.rfl
    rw [hfollows, List.getLast_singleton, Nat.zero_add, ← htotal]
    constructor
    · rintro ⟨⟨⟨hle, hwithin⟩, -⟩, rfl, hplayable⟩
      exact ⟨fun i page _ hlt => absurd hlt (by simp), ⟨page, hlast, rfl⟩, fun _ => hle,
        fun hseveral => absurd hsingle hseveral, hwithin, hplayable⟩
    · intro h
      obtain ⟨_, ⟨⟩, hgranule⟩ := h.last
      have hgranule : page.granule = granule := hgranule
      rw [hgranule]
      exact ⟨⟨⟨h.single hsingle, h.within⟩, trivial⟩, rfl, h.playable⟩
  · -- before several pages, no position and position zero admit the same
    have hzero : FollowAll preSkip none pages ↔ FollowAll preSkip (some 0) pages := by
      match pages, hpages, hsingle with
      | page :: next :: rest, _, _ => exact Iff.rfl
      | [page], _, hsingle => exact absurd rfl hsingle
    rw [hzero, followAll_some hpages]
    simp only [Nat.zero_add]
    constructor
    · rintro ⟨⟨hearlier, hafter, hwithin⟩, rfl, hplayable⟩
      exact ⟨hearlier, ⟨_, hlast, rfl⟩, fun hone => absurd hone hsingle, fun _ => hafter, hwithin, hplayable⟩
    · intro h
      obtain ⟨_, heq, hgranule⟩ := h.last
      obtain rfl := Option.some.inj (hlast.symm.trans heq)
      rw [hgranule]
      exact ⟨⟨h.earlier, h.several hsingle, h.within⟩, rfl, h.playable⟩

/-- Pages which follow each other end within their samples. -/
theorem FollowAll.le {preSkip : ℕ} {previous : Option ℕ} {pages : List (AudioPage getNbSamples)}
    (hpages : pages ≠ []) (h : FollowAll preSkip previous pages) :
    (pages.getLast hpages).granule ≤ previous.getD 0 + totalSamples pages := by
  induction pages generalizing previous with
  | nil => exact absurd rfl hpages
  | cons page rest ih =>
    obtain ⟨hfollows, hrest⟩ := h
    cases rest with
    | nil =>
      have htotal : totalSamples [page] = samplesOf page.packets := by simp [totalSamples, audioPackets]
      rw [htotal]
      exact hfollows.2
    | cons next rest =>
      have hgranule : page.granule = previous.getD 0 + samplesOf page.packets := hfollows
      have htotal : totalSamples (page :: next :: rest) = samplesOf page.packets + totalSamples (next :: rest) := by
        simp [totalSamples, audioPackets, samplesOf]
      rw [List.getLast_cons (List.cons_ne_nil next rest), htotal, ← Nat.add_assoc, ← hgranule]
      exact ih (List.cons_ne_nil next rest) hrest

end Positions

section Duration

/-- A stream behind which only its own duration is left is finished with it. -/
theorem finish_eq_ok {state : AudioTiming} {finalGranule : ℕ} {validated : ValidatedOggOpus}
    (hfits : state.previousPageGranule = some finalGranule →
      (finalGranule - state.preSkip) * 1000 + (SAMPLE_RATE_HZ - 1) ≤ U64.MAX) :
    state.finish finalGranule = .ok validated ↔
      (state.packetCount ≠ 0 ∧ state.sawEos = true ∧ state.previousPageGranule = some finalGranule ∧
        state.preSkip < finalGranule) ∧
      validated = ⟨state.preSkip, finalGranule - state.preSkip,
        ((finalGranule - state.preSkip) * 1000) ⌈/⌉ SAMPLE_RATE_HZ, state.packetCount⟩ := by
  have hfilter {duration : ℕ} : (U64.checkedSub finalGranule state.preSkip).filter (fun d => 0 < d) = some duration ↔
      state.preSkip < finalGranule ∧ finalGranule - state.preSkip = duration := by
    rw [Option.filter_eq_some_iff, U64.checkedSub_eq_some, decide_eq_true_iff]
    omega
  have hmillis (hprevious : state.previousPageGranule = some finalGranule) :
      (((U64.checkedMul (finalGranule - state.preSkip) 1000).bind fun value =>
        U64.checkedAdd value (SAMPLE_RATE_HZ - 1)).map fun value => value / SAMPLE_RATE_HZ) =
      some (((finalGranule - state.preSkip) * 1000) ⌈/⌉ SAMPLE_RATE_HZ) := by
    rw [U64.checkedMul_of_le (Nat.le_of_add_right_le (hfits hprevious)), Option.bind_some,
      U64.checkedAdd_of_le (hfits hprevious), Option.map_some, Nat.ceilDiv_eq_add_pred_div]
    rfl
  simp only [AudioTiming.finish, ite_error_eq_ok, bind_eq_ok, elim_eq_ok, hfilter]
  constructor
  · rintro ⟨hcount, heos, hprevious, _, ⟨hplayable, rfl⟩, millis, hduration, hvalidated⟩
    rw [not_not] at hprevious
    obtain rfl := Option.some.inj ((hmillis hprevious).symm.trans hduration)
    cases hvalidated
    exact ⟨⟨hcount, by simpa using heos, hprevious, hplayable⟩, rfl⟩
  · rintro ⟨⟨hcount, heos, hprevious, hplayable⟩, rfl⟩
    exact ⟨hcount, by simp [heos], not_not.mpr hprevious, _, ⟨hplayable, rfl⟩, _, hmillis hprevious, rfl⟩

/-- The duration of a finished stream is positive and in its range. -/
theorem durationMillis_of_finish {state : AudioTiming} {finalGranule : ℕ} {validated : ValidatedOggOpus}
    (h : state.finish finalGranule = .ok validated) :
    1 ≤ validated.durationMillis ∧ validated.durationMillis ≤ U64.MAX := by
  simp only [AudioTiming.finish, ite_error_eq_ok, bind_eq_ok, elim_eq_ok, Option.filter_eq_some_iff,
    Option.map_eq_some_iff, Option.bind_eq_some_iff, U64.checkedMul_eq_some, U64.checkedAdd_eq_some,
    SAMPLE_RATE_HZ] at h
  obtain ⟨_, _, _, samples, ⟨_, hpos⟩, millis, ⟨value, ⟨_, ⟨_, rfl⟩, hle, rfl⟩, rfl⟩, hvalidated⟩ := h
  cases hvalidated
  have hpos := of_decide_eq_true hpos
  exact ⟨by dsimp only; omega, (Nat.div_le_self _ _).trans hle⟩

/-- Packets hold at most as many samples as the longest ones. -/
theorem samplesOf_le (packets : List (AudioPacket getNbSamples)) : samplesOf packets ≤ 5760 * packets.length := by
  have hsum := List.sum_le_card_nsmul (packets.map AudioPacket.samples) 5760 fun samples hsamples => by
    obtain ⟨packet, -, rfl⟩ := List.mem_map.mp hsamples
    exact packet.samples_le
  rw [List.length_map, smul_eq_mul, Nat.mul_comm] at hsum
  exact hsum

/-- The timing of a stream succeeds exactly on exact positions, with the duration they give. -/
theorem timeAudio_eq_ok {preSkip finalGranule : ℕ} {pages : List (AudioPage getNbSamples)}
    {validated : ValidatedOggOpus} (hcount : (audioPackets pages).length ≤ U32_MAX) :
    timeAudio getNbSamples preSkip (readPages pages) finalGranule = .ok validated ↔
      ExactGranules preSkip pages finalGranule ∧
        validated = ⟨preSkip, finalGranule - preSkip, ((finalGranule - preSkip) * 1000) ⌈/⌉ SAMPLE_RATE_HZ,
          (audioPackets pages).length⟩ := by
  have htotal : totalSamples pages ≤ 5760 * (audioPackets pages).length := samplesOf_le _
  by_cases hpages : pages = []
  · subst hpages
    constructor
    · intro h
      cases h
    · rintro ⟨h, -⟩
      obtain ⟨_, hlast, -⟩ := h.last
      cases hlast
  · have hsome : (audioPackets pages).length ≠ 0 := by
      obtain ⟨page, rest, rfl⟩ := List.exists_cons_of_ne_nil hpages
      have hpos := List.length_pos_iff.mpr page.nonempty
      rw [audioPackets, List.flatMap_cons, List.length_append]
      omega
    have hrange : totalSamples pages * 1000 + (SAMPLE_RATE_HZ - 1) < U64.MAX := by
      unfold U32_MAX at hcount
      unfold U64.MAX SAMPLE_RATE_HZ
      omega
    have hfold {final : AudioTiming} := @foldlM_readPages_eq_ok _ (.new preSkip) final _ hpages rfl
      (by rwa [AudioTiming.new, Nat.zero_add]) (by rw [AudioTiming.new, Option.getD_none]; omega)
    have hfinished {final : AudioTiming} (hfinal : final = ⟨preSkip, 0 + (audioPackets pages).length,
          samplesOf (pages.getLast hpages).packets, some (pages.getLast hpages).granule, true⟩)
        (hall : FollowAll preSkip none pages) : final.finish finalGranule = .ok validated ↔
          ((pages.getLast hpages).granule = finalGranule ∧ preSkip < finalGranule) ∧
            validated = ⟨preSkip, finalGranule - preSkip, ((finalGranule - preSkip) * 1000) ⌈/⌉ SAMPLE_RATE_HZ,
              (audioPackets pages).length⟩ := by
      have hle := hall.le hpages
      rw [Option.getD_none, Nat.zero_add] at hle
      rw [Nat.zero_add] at hfinal
      subst hfinal
      rw [finish_eq_ok]
      · simp [hsome]
      · intro hgranule
        obtain rfl := Option.some.inj hgranule
        have hsub : (pages.getLast hpages).granule - preSkip ≤ totalSamples pages := (Nat.sub_le _ _).trans hle
        dsimp only
        omega
    rw [timeAudio, bind_eq_ok, ← followAll_none hpages, and_assoc]
    constructor
    · rintro ⟨final, hfinal, hfinish⟩
      obtain ⟨hall, hstate⟩ := hfold.mp hfinal
      exact ⟨hall, (hfinished hstate hall).mp hfinish⟩
    · rintro ⟨hall, hvalidated⟩
      exact ⟨_, hfold.mpr ⟨hall, rfl⟩, (hfinished rfl hall).mpr hvalidated⟩

end Duration

section Ranges

/-- A page begins behind the last packet of a page. -/
def Consistent (packets : List Packet) : Prop :=
  packets.IsChain fun packet next => packet.lastInPage = true → next.firstInPage = true

/-- The position and the open page are within the longest packets counted so far. -/
structure AudioTiming.Within (state : AudioTiming) (counted : ℕ) (first : Bool) : Prop where
  packet_count : state.packetCount = counted
  position : state.previousPageGranule.getD 0 + (if first then 0 else state.pageSamples) ≤ 5760 * counted

/-- The sums which count one more packet stay within their ranges. -/
structure AudioTiming.CountsWithin (state : AudioTiming) (first : Bool) (samples : ℕ) : Prop where
  page_samples : (if first then 0 else state.pageSamples) + samples ≤ U64.MAX
  packet_count : state.packetCount + 1 ≤ U32_MAX
  page_granule : ∀ previous ∈ state.previousPageGranule,
    previous + ((if first then 0 else state.pageSamples) + samples) ≤ U64.MAX

variable {state state' : AudioTiming} {packets : List Packet} {counted : ℕ}

/-- Checking the position of a page moves to it, and to no position behind the samples. -/
theorem validatePageGranule_within {packet : Packet} (h : state.validatePageGranule packet = .ok state') :
    state'.packetCount = state.packetCount ∧ state'.pageSamples = state.pageSamples ∧
      state'.previousPageGranule.getD 0 ≤ state.previousPageGranule.getD 0 + state.pageSamples := by
  rw [AudioTiming.validatePageGranule, ite_error_eq_ok, check_bind_eq_ok] at h
  obtain ⟨-, hcheck, hstate⟩ := h
  cases hstate
  refine ⟨rfl, rfl, ?_⟩
  rw [Option.getD_some]
  unfold AudioTiming.checkPageGranule at hcheck
  cases hprevious : state.previousPageGranule with
  | none =>
    simp only [hprevious] at hcheck
    rw [Option.getD_none]
    split at hcheck
    · have hbounds := (ite_error_eq_ok.mp hcheck).1
      omega
    · have hequal := (ite_error_eq_ok.mp hcheck).1
      omega
  | some previous =>
    simp only [hprevious, bind_eq_ok, elim_eq_ok, U64.checkedAdd_eq_some, ite_error_eq_ok] at hcheck
    obtain ⟨_, ⟨-, rfl⟩, hends, hopen, -⟩ := hcheck
    rw [Option.getD_some]
    cases hlast : packet.lastInStream <;> simp [hlast] at hends hopen <;> omega

/-- Counting a packet keeps the timing within the packets counted. -/
theorem AudioTiming.Within.accept {packet : Packet} {first : Bool} (hstate : state.Within counted packet.firstInPage)
    (h : state.accept getNbSamples packet = .ok state') (hfirst : packet.lastInPage = true → first = true) :
    state'.Within (counted + 1) first := by
  simp only [AudioTiming.accept, ite_error_eq_ok, bind_eq_ok, elim_eq_ok, U64.checkedAdd_eq_some,
    checkedAddU32_eq_some] at h
  obtain ⟨-, samples, -, hsamples, _, ⟨-, rfl⟩, _, ⟨-, rfl⟩, timed, htimed, hfinal⟩ := h
  cases hfinal
  have hsum : state.previousPageGranule.getD 0 +
      ((if packet.firstInPage then 0 else state.pageSamples) + samples) ≤ 5760 * (counted + 1) := by
    have hposition := hstate.position
    unfold MAX_SAMPLES_PER_PACKET at hsamples
    omega
  by_cases hlast : packet.lastInPage = true
  · -- the page is behind, so its samples no longer count
    rw [if_pos hlast] at htimed
    obtain ⟨hcounted, -, hposition⟩ := validatePageGranule_within htimed
    refine ⟨hcounted.trans (congrArg (· + 1) hstate.packet_count), ?_⟩
    rw [hfirst hlast, if_pos rfl]
    exact hposition.trans hsum
  · rw [if_neg hlast] at htimed
    cases htimed
    refine ⟨congrArg (· + 1) hstate.packet_count, ?_⟩
    refine le_trans (Nat.add_le_add_left ?_ _) hsum
    split
    · exact Nat.zero_le _
    · exact le_rfl

/-- Every packet is counted from a timing within the packets before it. -/
theorem within_of_accepted {n : ℕ} {packet : Packet} (hconsistent : Consistent packets)
    (hstate : ∀ first ∈ packets.head?, state.Within counted first.firstInPage) (hpacket : packets[n]? = some packet)
    (h : (packets.take n).foldlM (AudioTiming.accept getNbSamples) state = .ok state') :
    state'.Within (counted + n) packet.firstInPage := by
  induction packets generalizing state counted n with
  | nil => cases hpacket
  | cons first rest ih =>
    cases n with
    | zero =>
      cases hpacket
      cases h
      exact hstate _ rfl
    | succ n =>
      rw [List.take_succ_cons, List.foldlM_cons, bind_eq_ok] at h
      obtain ⟨middle, hfirst, hrest⟩ := h
      obtain ⟨hnext, htail⟩ := List.isChain_cons.mp hconsistent
      rw [Nat.add_comm n, ← Nat.add_assoc]
      exact ih htail (fun next hmem => (hstate first rfl).accept hfirst (hnext next hmem)) hpacket hrest

theorem readPackets_consistent (granule : ℕ) (endsStream first : Bool) (packets : List (AudioPacket getNbSamples)) :
    Consistent (readPackets granule endsStream first packets) := by
  induction packets generalizing first with
  | nil => exact List.isChain_nil
  | cons packet rest ih =>
    refine List.isChain_cons.mpr ⟨fun next hnext hlast => ?_, ih false⟩
    obtain rfl := List.isEmpty_iff.mp hlast
    cases hnext

/-- The packets of pages begin a page behind every page. -/
theorem readPages_consistent (pages : List (AudioPage getNbSamples)) :
    Consistent (readPages pages) ∧ ∀ first ∈ (readPages pages).head?, first.firstInPage = true := by
  induction pages with
  | nil => exact ⟨List.isChain_nil, fun _ h => nomatch h⟩
  | cons page rest ih =>
    obtain ⟨hrest, hfirst⟩ := ih
    refine ⟨List.isChain_append.mpr ⟨readPackets_consistent _ _ _ _, hrest, fun _ _ next hnext _ =>
      hfirst next hnext⟩, ?_⟩
    obtain ⟨packet, packets, hpackets⟩ := List.exists_cons_of_ne_nil page.nonempty
    rw [readPages, hpackets]
    rintro _ ⟨⟩
    rfl

/-- The reader gives the data of the packets. -/
theorem mem_readPages {packet : Packet} {pages : List (AudioPage getNbSamples)} (h : packet ∈ readPages pages) :
    ∃ source ∈ audioPackets pages, source.data = packet.data := by
  have hpackets (granule : ℕ) (endsStream first : Bool) (packets : List (AudioPacket getNbSamples))
      (h : packet ∈ readPackets granule endsStream first packets) :
    ∃ source ∈ packets, source.data = packet.data := by
    induction packets generalizing first with
    | nil => cases h
    | cons source rest ih =>
      rcases List.mem_cons.mp h with rfl | hrest
      · exact ⟨source, List.mem_cons_self, rfl⟩
      · obtain ⟨other, hmem, hdata⟩ := ih false hrest
        exact ⟨other, List.mem_cons_of_mem _ hmem, hdata⟩
  induction pages with
  | nil => cases h
  | cons page rest ih =>
    rw [audioPackets, List.flatMap_cons]
    rcases List.mem_append.mp h with hpage | hrest
    · obtain ⟨source, hmem, hdata⟩ := hpackets _ _ _ _ hpage
      exact ⟨source, List.mem_append_left _ hmem, hdata⟩
    · obtain ⟨source, hmem, hdata⟩ := ih hrest
      exact ⟨source, List.mem_append_right _ hmem, hdata⟩

/-- An upload of legal size holds a countable number of packets. -/
theorem length_audioPackets_le {pages : List (AudioPage getNbSamples)}
    (h : ((audioPackets pages).map fun packet => packet.data.length).sum ≤ 64 * 1024 * 1024) :
    (audioPackets pages).length ≤ U32_MAX := by
  have hsum := List.card_nsmul_le_sum ((audioPackets pages).map fun packet => packet.data.length) 1
    fun length hlength => by
      obtain ⟨packet, -, rfl⟩ := List.mem_map.mp hlength
      exact List.length_pos_iff.mpr packet.nonempty
  rw [List.length_map, smul_eq_mul, Nat.mul_one] at hsum
  unfold U32_MAX
  omega

@[simp] theorem length_readPages (pages : List (AudioPage getNbSamples)) :
    (readPages pages).length = (audioPackets pages).length := by
  have hpackets (granule : ℕ) (endsStream first : Bool) (packets : List (AudioPacket getNbSamples)) :
      (readPackets granule endsStream first packets).length = packets.length := by
    induction packets generalizing first with
    | nil => rfl
    | cons packet rest ih => rw [readPackets, List.length_cons, ih, List.length_cons]
  induction pages with
  | nil => rfl
  | cons page rest ih =>
    rw [readPages, List.length_append, hpackets, ih]
    simp [audioPackets]

/-- The sums which count a packet of the pages stay within their ranges. -/
theorem countsWithin_of_accepted {preSkip n : ℕ} {pages : List (AudioPage getNbSamples)} {packet : Packet}
    {samples : ℕ} (hcount : (audioPackets pages).length ≤ U32_MAX) (hpacket : (readPages pages)[n]? = some packet)
    (hsamples : getNbSamples packet.data = some samples)
    (h : ((readPages pages).take n).foldlM (AudioTiming.accept getNbSamples) (.new preSkip) = .ok state) :
    state.CountsWithin packet.firstInPage samples := by
  have hnew (first : Bool) : (AudioTiming.new preSkip).Within 0 first := ⟨rfl, by simp [AudioTiming.new]⟩
  obtain ⟨hcounted, hposition⟩ :=
    within_of_accepted (readPages_consistent pages).1 (fun first _ => hnew first.firstInPage) hpacket h
  have hlast : n < (audioPackets pages).length := by
    rw [← length_readPages]
    exact (List.getElem?_eq_some_iff.mp hpacket).1
  obtain ⟨source, -, hdata⟩ := mem_readPages (List.mem_of_getElem? hpacket)
  have hle : samples ≤ 5760 := by
    have hsource := source.counted
    rw [hdata, hsamples] at hsource
    exact Option.some.inj hsource ▸ source.samples_le
  have hrange : 5760 * U32_MAX ≤ U64.MAX := by decide
  refine ⟨by omega, by omega, fun previous hprevious => ?_⟩
  rw [hprevious, Option.getD_some] at hposition
  omega

/-- A stream which is timed is at a position within its samples. -/
theorem position_le_of_accepted {preSkip finalGranule : ℕ} {pages : List (AudioPage getNbSamples)}
    (hcount : (audioPackets pages).length ≤ U32_MAX)
    (h : (readPages pages).foldlM (AudioTiming.accept getNbSamples) (.new preSkip) = .ok state)
    (hposition : state.previousPageGranule = some finalGranule) : finalGranule ≤ totalSamples pages := by
  have htotal : totalSamples pages ≤ 5760 * (audioPackets pages).length := samplesOf_le _
  have hrange : 5760 * U32_MAX < U64.MAX := by decide
  by_cases hpages : pages = []
  · subst hpages
    cases h
    cases hposition
  · rw [foldlM_readPages_eq_ok hpages rfl (by rwa [AudioTiming.new, Nat.zero_add])
      (by rw [AudioTiming.new, Option.getD_none]; omega)] at h
    obtain ⟨hall, rfl⟩ := h
    obtain rfl := Option.some.inj hposition
    have hle := hall.le hpages
    rwa [AudioTiming.new, Option.getD_none, Nat.zero_add] at hle

/-- The timing of audio pages succeeds exactly on exact positions. It then gives the samples behind the pre-skip,
their milliseconds rounded up and the count of the packets, and none of its sums leaves its range. -/
theorem playableDuration_exact (preSkip : ℕ) (pages : List (AudioPage getNbSamples)) :
    (((audioPackets pages).map fun packet => packet.data.length).sum ≤ 64 * 1024 * 1024 →
      (audioPackets pages).length ≤ U32_MAX) ∧
    ((audioPackets pages).length ≤ U32_MAX →
      (∀ finalGranule, (∃ validated, timeAudio getNbSamples preSkip (readPages pages) finalGranule = .ok validated) ↔
        ExactGranules preSkip pages finalGranule) ∧
      (∀ finalGranule validated, timeAudio getNbSamples preSkip (readPages pages) finalGranule = .ok validated →
        validated.durationSamples = finalGranule - preSkip ∧
        validated.durationSamples ≤ totalSamples pages - preSkip ∧
        validated.durationMillis = (validated.durationSamples * 1000) ⌈/⌉ 48000 ∧ 1 ≤ validated.durationMillis ∧
        validated.audioPacketCount = (audioPackets pages).length) ∧
      (∀ (n : ℕ) (packet : Packet) (samples : ℕ) (state : AudioTiming), (readPages pages)[n]? = some packet →
        getNbSamples packet.data = some samples →
        ((readPages pages).take n).foldlM (AudioTiming.accept getNbSamples) (.new preSkip) = .ok state →
        state.CountsWithin packet.firstInPage samples) ∧
      ∀ (state : AudioTiming) (finalGranule : ℕ),
        (readPages pages).foldlM (AudioTiming.accept getNbSamples) (.new preSkip) = .ok state →
        state.previousPageGranule = some finalGranule →
        (finalGranule - preSkip) * 1000 + (48000 - 1) ≤ U64.MAX) := by
  refine ⟨length_audioPackets_le, fun hcount => ⟨fun finalGranule => ?_, fun finalGranule validated h => ?_,
    fun n packet samples state => countsWithin_of_accepted hcount, fun state finalGranule h hposition => ?_⟩⟩
  · simp only [timeAudio_eq_ok hcount, exists_and_left, exists_eq, and_true]
  · obtain ⟨hexact, rfl⟩ := (timeAudio_eq_ok hcount).mp h
    have hplayable := hexact.playable
    refine ⟨rfl, Nat.sub_le_sub_right hexact.within preSkip, rfl, ?_, rfl⟩
    dsimp only
    rw [Nat.ceilDiv_eq_add_pred_div, SAMPLE_RATE_HZ, Nat.one_le_div_iff (by decide)]
    omega
  · have hle := position_le_of_accepted hcount h hposition
    have htotal : totalSamples pages ≤ 5760 * (audioPackets pages).length := samplesOf_le _
    have hrange : (5760 * U32_MAX) * 1000 + (48000 - 1) ≤ U64.MAX := by decide
    have hduration : finalGranule - preSkip ≤ 5760 * U32_MAX := by omega
    exact (Nat.add_le_add_right (Nat.mul_le_mul_right 1000 hduration) _).trans hrange

-- two packets on a first page and one on the last
example : timeAudio (fun _ => some 960) 312
    [⟨[0xf8, 0xff, 0xfe], true, false, false, 1920⟩, ⟨[0xf8, 0xff, 0xfe], false, true, false, 1920⟩,
      ⟨[0xf8, 0xff, 0xfe], true, true, true, 2880⟩] 2880 = .ok ⟨312, 2568, 54, 3⟩ := by
  decide +kernel

end Ranges

end Voicetext.Audio.OggOpus
