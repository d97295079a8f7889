import Mathlib.Data.List.Chain
import Voicetext.Audio.ContainerPages

/-!
# The container scan accepts exactly its grammar

A container is a sequence of pages of one logical stream: the first begins it, the last ends it, they are
numbered from zero and their granule positions do not decrease. The scan admits such a sequence page by page
and no other bytes, and it never leaves the upload.
-/

namespace Voicetext.Audio.OggOpus

open Voicetext.Common

namespace Page

variable (page : Page)

/-- The page continues a packet of the page before it. -/
def Continued : Prop := page.flags &&& 0x01 ≠ 0

/-- The page begins the stream. -/
def BeginsStream : Prop := page.flags &&& 0x02 ≠ 0

/-- The page ends the stream. -/
def EndsStream : Prop := page.flags &&& 0x04 ≠ 0

/-- A packet ends on the page. -/
def CompletesPacket : Prop := ∃ value ∈ page.segments, value < 255

end Page

/-- The granule positions of pages which carry one. -/
def positions (pages : List Page) : List ℕ := (pages.map Page.granule).filter (· ≠ NO_GRANULE_POSITION)

/-- The pages of one complete logical stream. -/
structure Container (pages : List Page) (summary : ContainerSummary) : Prop where
  nonempty : pages ≠ []
  serial_eq : ∀ page ∈ pages, page.serial = summary.serial
  begins_iff : ∀ i (page : Page), pages[i]? = some page → (page.BeginsStream ↔ i = 0)
  first_not_continued : ∀ page ∈ pages.head?, ¬ page.Continued
  sequence_eq : ∀ i (page : Page), pages[i]? = some page → page.sequence = i
  granule_iff : ∀ page ∈ pages, page.granule = 2 ^ 64 - 1 ↔ ¬ page.CompletesPacket
  granules_ordered : (positions pages).Pairwise (· ≤ ·)
  ends_iff : ∀ i (page : Page), pages[i]? = some page → (page.EndsStream ↔ i + 1 = pages.length)
  final_granule : ∃ page, pages.getLast? = some page ∧ page.granule = summary.finalGranule
  final_position : summary.finalGranule ≠ 2 ^ 64 - 1

section Bounds

/-- Reading a page stays within the upload. -/
theorem readPage_inBounds (input : List UInt8) (offset : ℕ) : Checked.InBounds (readPage input offset) := by
  refine (Checked.inBounds_endWithin _ _ _).bind fun headerEnd hheaderEnd => ?_
  obtain ⟨rfl, hheaderLe⟩ := Checked.endWithin_eq_pure hheaderEnd
  refine (Checked.inBounds_slice (by omega) hheaderLe).bind fun header hheader => ?_
  have hlength : header.length = 27 := by
    obtain ⟨-, rfl⟩ := Checked.slice_eq_pure.mp hheader
    simp
    omega
  have hnumber (start count : ℕ) (h : start + count ≤ 27) :
      Checked.InBounds (Checked.slice header start (start + count) >>= Checked.readLe count :
        Checked OggOpusValidationError ℕ) := by
    refine (Checked.inBounds_slice (by omega) (by omega)).bind fun bytes hbytes => ?_
    obtain ⟨-, rfl⟩ := Checked.slice_eq_pure.mp hbytes
    exact Checked.inBounds_readLe (by simp; omega)
  refine (Checked.inBounds_slice (by omega) (by omega)).bind fun capture _ => ?_
  refine (Checked.inBounds_index (by omega)).bind fun version _ => ?_
  refine (Checked.inBounds_index (by omega)).bind fun flags _ => ?_
  refine Checked.inBounds_ite (fun _ => Checked.inBounds_throw _) fun _ => ?_
  refine (hnumber 6 8 (by omega)).bind fun granule _ => ?_
  refine (hnumber 14 4 (by omega)).bind fun serial _ => ?_
  refine (hnumber 18 4 (by omega)).bind fun sequence _ => ?_
  refine (Checked.inBounds_index (by omega)).bind fun segmentCount _ => ?_
  refine (Checked.inBounds_endWithin _ _ _).bind fun tableEnd htableEnd => ?_
  obtain ⟨rfl, htableLe⟩ := Checked.endWithin_eq_pure htableEnd
  refine (Checked.inBounds_slice (by omega) htableLe).bind fun segments _ => ?_
  exact (Checked.inBounds_endWithin _ _ _).bind fun next _ => Checked.inBounds_pure _

theorem scanPage_inBounds (input : List UInt8) (state : ScanState) : Checked.InBounds (scanPage input state) :=
  (readPage_inBounds input state.offset).bind fun page _ => by
    cases admitPage input.length state page with
    | error e => exact Checked.inBounds_throw e
    | ok next => exact Checked.inBounds_pure next

/-- Scanning pages stays within the upload. -/
theorem scanPages_inBounds (input : List UInt8) (state : ScanState) :
    Checked.InBounds (scanPages input state) := by
  fun_induction scanPages input state with
  | case1 state hoffset next hnext hmoved ih => exact ih
  | case2 state hoffset error herror => exact Checked.inBounds_throw error
  | case3 state hoffset hnone => exact absurd hnone (scanPage_inBounds input state)
  | case4 state hoffset => exact Checked.inBounds_pure state

/-- The scan stays within every upload. -/
theorem scanContainer_inBounds (input : List UInt8) : Checked.InBounds (scanContainer input) := by
  refine Checked.inBounds_ite (fun _ => Checked.inBounds_throw _) fun _ => ?_
  refine (scanPages_inBounds input .initial).bind fun state _ => ?_
  refine (Checked.inBounds_elim state.serial _).bind fun serial _ => ?_
  exact (Checked.inBounds_elim state.finalGranule _).bind fun granule _ => Checked.inBounds_pure _

end Bounds

section Admission

/-- What the scan requires of a page, given whether it is the last. -/
structure Admits (state : ScanState) (page : Page) (last : Prop) : Prop where
  granule_iff : page.granule = NO_GRANULE_POSITION ↔ ¬ page.CompletesPacket
  begins : state.serial = none → page.BeginsStream ∧ ¬ page.Continued
  belongs : ∀ serial ∈ state.serial, page.serial = serial ∧ ¬ page.BeginsStream
  sequence_eq : page.sequence = state.expectedSequence
  sequence_fits : state.expectedSequence + 1 ≤ U32_MAX
  granule_le : page.granule ≠ NO_GRANULE_POSITION → state.sawPosition = true →
    state.previousGranule ≤ page.granule
  ends : page.EndsStream → last ∧ page.granule ≠ NO_GRANULE_POSITION

/-- The scan behind a page. -/
def ScanState.advance (state : ScanState) (page : Page) : ScanState where
  offset := state.offset + page.encode.length
  serial := some page.serial
  expectedSequence := state.expectedSequence + 1
  previousGranule := if page.granule ≠ NO_GRANULE_POSITION then page.granule else state.previousGranule
  sawPosition := state.sawPosition || page.granule ≠ NO_GRANULE_POSITION
  finalGranule := if page.flags &&& 0x04 ≠ 0 then some page.granule else state.finalGranule

variable {state state' : ScanState} {page : Page} {length : ℕ}

theorem admitSerial_eq_ok {next serial : ℕ} :
    admitSerial (page.reading next) state.serial = .ok serial ↔
      ((state.serial = none → page.BeginsStream ∧ ¬ page.Continued) ∧
        ∀ value ∈ state.serial, page.serial = value ∧ ¬ page.BeginsStream) ∧ page.serial = serial := by
  cases hserial : state.serial with
  | none =>
    simp only [admitSerial, ite_ok_eq_ok]
    simp [Page.reading, Page.BeginsStream, Page.Continued]
  | some value =>
    simp only [admitSerial, ite_ok_eq_ok]
    simp only [Page.reading, Page.BeginsStream, Option.mem_def, Option.some.injEq, forall_eq', reduceCtorEq,
      false_implies, true_and, not_not]
    constructor
    · rintro ⟨⟨rfl, hbos⟩, rfl⟩
      exact ⟨⟨rfl, hbos⟩, rfl⟩
    · rintro ⟨⟨rfl, hbos⟩, rfl⟩
      exact ⟨⟨rfl, hbos⟩, rfl⟩

/-- The scan admits a page exactly when it meets the requirements. -/
theorem admitPage_eq_ok :
    admitPage length state (page.reading (state.offset + page.encode.length)) = .ok state' ↔
      Admits state page (state.offset + page.encode.length = length) ∧ state' = state.advance page := by
  have hcompletes : (page.segments.any fun value => decide (value < 255)) =
      decide (page.granule = NO_GRANULE_POSITION) ↔
        ¬ (page.granule = NO_GRANULE_POSITION ↔ ¬ page.CompletesPacket) := by
    have hany : (page.segments.any fun value => decide (value < 255)) = true ↔ page.CompletesPacket := by
      simp [Page.CompletesPacket]
    by_cases hcompleted : page.CompletesPacket
    · simp [hany.mpr hcompleted, hcompleted]
    · have hnone : (page.segments.any fun value => decide (value < 255)) = false :=
        Bool.eq_false_iff.mpr (mt hany.mp hcompleted)
      simp [hnone, hcompleted]
  have hsequence : (checkedAddU32 state.expectedSequence 1).elim
      (Except.error OggOpusValidationError.invalidContainer) .ok =
        .ok (state.expectedSequence + 1) ↔ state.expectedSequence + 1 ≤ U32_MAX := by
    unfold checkedAddU32
    split <;> simp_all
  simp only [admitPage, ite_error_eq_ok, bind_eq_ok, admitSerial_eq_ok]
  simp only [Page.reading]
  constructor
  · rintro ⟨hgranule, serial, ⟨⟨hbegins, hbelongs⟩, rfl⟩, hnumber, expected, hexpected, hle, hends, hstate⟩
    obtain ⟨hfits, rfl⟩ : state.expectedSequence + 1 ≤ U32_MAX ∧ expected = state.expectedSequence + 1 := by
      rw [elim_eq_ok, checkedAddU32] at hexpected
      split at hexpected
      · exact ⟨‹_›, (Option.some.inj hexpected).symm⟩
      · cases hexpected
    refine ⟨⟨?_, hbegins, hbelongs, not_not.mp hnumber, hfits, ?_, ?_⟩, (Except.ok.inj hstate).symm⟩
    · exact not_not.mp fun h => hgranule (hcompletes.mpr h)
    · intro hposition hsaw
      by_contra hlt
      exact hle ⟨hposition, hsaw, Nat.not_le.mp hlt⟩
    · intro heos
      by_contra hwrong
      refine hends ⟨heos, ?_⟩
      by_cases hlast : state.offset + page.encode.length = length
      · exact .inr (not_not.mp fun hposition => hwrong ⟨hlast, hposition⟩)
      · exact .inl hlast
  · rintro ⟨h, rfl⟩
    refine ⟨fun hbad => hcompletes.mp hbad h.granule_iff, page.serial, ⟨⟨h.begins, h.belongs⟩, rfl⟩,
      not_not.mpr h.sequence_eq, _, hsequence.mpr h.sequence_fits, ?_, ?_, rfl⟩
    · rintro ⟨hposition, hsaw, hlt⟩
      exact absurd (h.granule_le hposition hsaw) (Nat.not_le.mpr hlt)
    · rintro ⟨heos, hbad⟩
      obtain ⟨hlast, hposition⟩ := h.ends heos
      exact hbad.elim (fun hne => hne hlast) hposition

end Admission

section Scanning

variable {input : List UInt8} {state final : ScanState}

/-- What the scan requires of the pages up to the end of the upload. -/
def AdmitsAll : ScanState → List Page → Prop
  | _, [] => True
  | state, page :: rest => Admits state page (rest = []) ∧ AdmitsAll (state.advance page) rest

/-- The bytes of pages. -/
def encodePages (pages : List Page) : List UInt8 := pages.flatMap Page.encode

/-- Pages take at least the bytes of their headers. -/
theorem length_encodePages_ge (pages : List Page) : 27 * pages.length ≤ (encodePages pages).length := by
  induction pages with
  | nil => exact Nat.zero_le _
  | cons page rest ih =>
    have hpage := page.length_encode
    simp only [encodePages, List.flatMap_cons, List.length_append, List.length_cons] at ih ⊢
    omega

/-- Only no pages take no bytes. -/
theorem encodePages_eq_nil {pages : List Page} : encodePages pages = [] ↔ pages = [] := by
  constructor
  · intro h
    have hle := length_encodePages_ge pages
    rw [h, List.length_nil] at hle
    exact List.length_eq_zero_iff.mp (by omega)
  · rintro rfl
    rfl

/-- One page is scanned when it is written at the offset and admitted. -/
theorem scanPage_eq_pure (hinput : input.length ≤ U64.MAX) {next : ScanState} :
    scanPage input state = pure next ↔
      ∃ page after, input.drop state.offset = page.encode ++ after ∧
        Admits state page (after = []) ∧ next = state.advance page := by
  have hlast {page : Page} {after : List UInt8} (h : input.drop state.offset = page.encode ++ after) :
      state.offset + page.encode.length = input.length ↔ after = [] := by
    have hlength := congrArg List.length h
    have hencode := page.length_encode
    rw [List.length_drop, List.length_append] at hlength
    rw [← List.length_eq_zero_iff]
    omega
  constructor
  · intro h
    obtain ⟨reading, hread, hadmit⟩ := Checked.bind_eq_pure.mp h
    obtain ⟨page, after, hbytes, rfl⟩ := page_of_readPage hread
    obtain ⟨hadmits, rfl⟩ := admitPage_eq_ok.mp (Option.some.inj hadmit)
    rw [hlast hbytes] at hadmits
    exact ⟨page, after, hbytes, hadmits, rfl⟩
  · rintro ⟨page, after, hbytes, hadmits, rfl⟩
    have hoffset : (input.take state.offset).length = state.offset := by
      have hlength := congrArg List.length hbytes
      have hencode := page.length_encode
      rw [List.length_drop, List.length_append] at hlength
      rw [List.length_take]
      omega
    have hsplit : input = input.take state.offset ++ (page.encode ++ after) := by
      rw [← hbytes, List.take_append_drop]
    have hread := readPage_encode hinput page hsplit
    rw [hoffset] at hread
    rw [← hlast hbytes] at hadmits
    rw [scanPage, hread, pure_bind, admitPage_eq_ok.mpr ⟨hadmits, rfl⟩]
    rfl

/-- Pages are scanned when they are written up to the end of the upload and admitted one by one. -/
theorem scanPages_eq_pure (hinput : input.length ≤ U64.MAX) (hoffset : state.offset ≤ input.length) :
    scanPages input state = pure final ↔
      ∃ pages, input.drop state.offset = encodePages pages ∧ AdmitsAll state pages ∧
        final = pages.foldl ScanState.advance state := by
  constructor
  · intro h
    fun_induction scanPages input state with
    | case1 state hlt next hnext hmoved ih =>
      obtain ⟨page, after, hbytes, hadmits, rfl⟩ := (scanPage_eq_pure hinput).mp hnext
      obtain ⟨pages, hafter, hall, rfl⟩ := ih hmoved.2 h
      have hrest : after = encodePages pages := by
        rw [← hafter, ScanState.advance, ← List.drop_drop, hbytes, List.drop_left]
      refine ⟨page :: pages, ?_, ⟨?_, hall⟩, rfl⟩
      · rw [hbytes, hrest]
        rfl
      · rwa [hrest, encodePages_eq_nil] at hadmits
    | case2 state hlt error herror => exact absurd h Checked.throw_ne_pure
    | case3 state hlt hnone => exact absurd h Checked.outOfBounds_ne_pure
    | case4 state hge =>
      refine ⟨[], ?_, trivial, (Checked.pure_inj.mp h).symm⟩
      rw [List.drop_eq_nil_of_le (Nat.not_lt.mp hge)]
      rfl
  · rintro ⟨pages, hbytes, hall, rfl⟩
    induction pages generalizing state with
    | nil =>
      have hlength := congrArg List.length hbytes
      rw [List.length_drop] at hlength
      rw [scanPages, if_neg (by simp [encodePages] at hlength; omega)]
      rfl
    | cons page rest ih =>
      obtain ⟨hadmits, hall⟩ := hall
      have hrest : input.drop state.offset = page.encode ++ encodePages rest := hbytes
      rw [← encodePages_eq_nil] at hadmits
      have hnext : (scanPage input state).run = some (.ok (state.advance page)) :=
        (scanPage_eq_pure hinput).mpr ⟨page, _, hrest, hadmits, rfl⟩
      have hlength := congrArg List.length hrest
      have hencode := page.length_encode
      rw [List.length_drop, List.length_append] at hlength
      have hafter : input.drop (state.advance page).offset = encodePages rest := by
        rw [ScanState.advance, ← List.drop_drop, hrest, List.drop_left]
      rw [scanPages, if_pos (by omega)]
      split
      · rename_i next hsome
        obtain rfl : state.advance page = next := by simpa [hnext] using hsome
        exact ih (by simp only [ScanState.advance]; omega) hafter hall
      · rename_i hsome
        simp [hnext] at hsome
      · rename_i hsome
        simp [hnext] at hsome

end Scanning

section Grammar

variable {pages : List Page} {state : ScanState}

/-- What holds at every index of a list holds at its head and at every index of its tail. -/
theorem forall_getElem?_cons {α : Type} {a : α} {rest : List α} {holds : ℕ → α → Prop} :
    (∀ i b, (a :: rest)[i]? = some b → holds i b) ↔
      holds 0 a ∧ ∀ i b, rest[i]? = some b → holds (i + 1) b := by
  constructor
  · intro h
    exact ⟨h 0 a rfl, fun i b hb => h (i + 1) b hb⟩
  · rintro ⟨hhead, htail⟩ i b hb
    cases i with
    | zero => exact Option.some.inj hb ▸ hhead
    | succ i => exact htail i b hb

/-- The granule positions a scan has yet to keep in order. -/
def ScanState.trail (state : ScanState) (pages : List Page) : List ℕ :=
  if state.sawPosition = true then state.previousGranule :: positions pages else positions pages

/-- A page is in order when it keeps the trail in order. -/
theorem trail_cons {page : Page} :
    (state.trail (page :: pages)).IsChain (· ≤ ·) ↔
      (page.granule ≠ NO_GRANULE_POSITION → state.sawPosition = true → state.previousGranule ≤ page.granule) ∧
        ((state.advance page).trail pages).IsChain (· ≤ ·) := by
  by_cases hposition : page.granule = NO_GRANULE_POSITION
  · simp [ScanState.trail, ScanState.advance, positions, hposition]
  · by_cases hsaw : state.sawPosition = true
    · simp [ScanState.trail, ScanState.advance, positions, hposition, hsaw]
    · simp [ScanState.trail, ScanState.advance, positions, hposition, hsaw]

/-- What the rest of a stream keeps to, behind its first page. -/
structure Continuation (state : ScanState) (serial : ℕ) (pages : List Page) : Prop where
  granule_iff : ∀ page ∈ pages, page.granule = NO_GRANULE_POSITION ↔ ¬ page.CompletesPacket
  belongs : ∀ page ∈ pages, page.serial = serial ∧ ¬ page.BeginsStream
  sequence_eq : ∀ i (page : Page), pages[i]? = some page → page.sequence = state.expectedSequence + i
  ordered : (state.trail pages).IsChain (· ≤ ·)
  ends : ∀ i (page : Page), pages[i]? = some page → page.EndsStream →
    i + 1 = pages.length ∧ page.granule ≠ NO_GRANULE_POSITION

/-- Behind the first page the pages are admitted exactly when they continue the stream. -/
theorem admitsAll_iff_continuation {serial : ℕ} (hserial : state.serial = some serial)
    (hfits : state.expectedSequence + pages.length ≤ U32_MAX) :
    AdmitsAll state pages ↔ Continuation state serial pages := by
  induction pages generalizing state with
  | nil =>
    refine ⟨fun _ => ⟨by simp, by simp, by simp, ?_, by simp⟩, fun _ => trivial⟩
    unfold ScanState.trail
    split <;> simp [positions]
  | cons page rest ih =>
    rw [List.length_cons] at hfits
    have hindex (i : ℕ) : state.expectedSequence + (i + 1) = (state.advance page).expectedSequence + i := by
      simp only [ScanState.advance]
      omega
    have hlast (i : ℕ) : i + 1 + 1 = (page :: rest).length ↔ i + 1 = rest.length := by simp
    constructor
    · rintro ⟨hadmits, hall⟩
      obtain ⟨hpage, hbegins⟩ := hadmits.belongs serial (Option.mem_def.mpr hserial)
      have hserialNext : (state.advance page).serial = some serial := by rw [← hpage]; rfl
      have hnext := (ih hserialNext (by simp only [ScanState.advance]; omega)).mp hall
      refine ⟨List.forall_mem_cons.mpr ⟨hadmits.granule_iff, hnext.granule_iff⟩,
        List.forall_mem_cons.mpr ⟨⟨hpage, hbegins⟩, hnext.belongs⟩, ?_,
        trail_cons.mpr ⟨hadmits.granule_le, hnext.ordered⟩, ?_⟩
      · refine forall_getElem?_cons.mpr ⟨hadmits.sequence_eq, fun i other hother => ?_⟩
        rw [hindex]
        exact hnext.sequence_eq i other hother
      · refine forall_getElem?_cons.mpr ⟨fun heos => ?_, fun i other hother heos => ?_⟩
        · obtain ⟨rfl, hposition⟩ := hadmits.ends heos
          exact ⟨rfl, hposition⟩
        · rw [hlast]
          exact hnext.ends i other hother heos
    · rintro ⟨hgranule, hbelongs, hsequence, hordered, hends⟩
      obtain ⟨hgranulePage, hgranuleRest⟩ := List.forall_mem_cons.mp hgranule
      obtain ⟨hbelongsPage, hbelongsRest⟩ := List.forall_mem_cons.mp hbelongs
      obtain ⟨hsequencePage, hsequenceRest⟩ := forall_getElem?_cons.mp hsequence
      obtain ⟨hle, horderedRest⟩ := trail_cons.mp hordered
      obtain ⟨hendsPage, hendsRest⟩ := forall_getElem?_cons.mp hends
      refine ⟨⟨hgranulePage, by simp [hserial], fun value hvalue => ?_, hsequencePage, by omega, hle,
        fun heos => ?_⟩, (ih (by rw [← hbelongsPage.1]; rfl) (by simp only [ScanState.advance]; omega)).mpr
          ⟨hgranuleRest, hbelongsRest, fun i other hother => ?_, horderedRest, fun i other hother heos => ?_⟩⟩
      · obtain rfl : serial = value := by simpa [hserial] using hvalue
        exact hbelongsPage
      · obtain ⟨hlength, hposition⟩ := hendsPage heos
        exact ⟨List.length_eq_zero_iff.mp (by simpa using hlength.symm), hposition⟩
      · rw [← hindex]
        exact hsequenceRest i other hother
      · rw [← hlast]
        exact hendsRest i other hother heos

/-- The scan keeps the serial of a stream. -/
theorem foldl_serial {serial : ℕ} (hserial : state.serial = some serial)
    (hpages : ∀ page ∈ pages, page.serial = serial) :
    (pages.foldl ScanState.advance state).serial = some serial := by
  induction pages generalizing state with
  | nil => exact hserial
  | cons page rest ih =>
    obtain ⟨hpage, hrest⟩ := List.forall_mem_cons.mp hpages
    exact ih (by rw [← hpage]; rfl) hrest

/-- Only the page which ends the stream gives the final granule. -/
theorem foldl_finalGranule (hpages : ∀ page ∈ pages, ¬ page.EndsStream) :
    (pages.foldl ScanState.advance state).finalGranule = state.finalGranule := by
  induction pages generalizing state with
  | nil => rfl
  | cons page rest ih =>
    obtain ⟨hpage, hrest⟩ := List.forall_mem_cons.mp hpages
    rw [List.foldl_cons, ih hrest]
    exact if_neg hpage

/-- The final granule is that of the last page, which ends the stream. -/
theorem foldl_finalGranule_eq_some {granule : ℕ} (hstate : state.finalGranule = none)
    (hends : ∀ i (page : Page), pages[i]? = some page → page.EndsStream → i + 1 = pages.length) :
    (pages.foldl ScanState.advance state).finalGranule = some granule ↔
      ∃ page, pages.getLast? = some page ∧ page.EndsStream ∧ page.granule = granule := by
  rcases List.eq_nil_or_concat pages with rfl | ⟨front, last, rfl⟩
  · simp [hstate]
  · rw [List.concat_eq_append] at hends ⊢
    have hfront : ∀ page ∈ front, ¬ page.EndsStream := by
      intro page hpage heos
      obtain ⟨i, hi⟩ := List.mem_iff_getElem?.mp hpage
      obtain ⟨hlt, -⟩ := List.getElem?_eq_some_iff.mp hi
      have hlength := hends i page (by rwa [List.getElem?_append_left hlt]) heos
      simp at hlength
      omega
    rw [List.foldl_append, List.foldl_cons, List.foldl_nil, ScanState.advance, foldl_finalGranule hfront, hstate]
    by_cases heos : last.EndsStream
    · simp [if_pos (show last.flags &&& 0x04 ≠ 0 from heos), heos]
    · simp [if_neg (show ¬ last.flags &&& 0x04 ≠ 0 from heos), heos]

/-- The scan admits pages and reports their serial and final granule exactly when they are a container. -/
theorem admitsAll_iff_container {serial granule : ℕ} (hfits : pages.length ≤ U32_MAX) :
    (AdmitsAll .initial pages ∧ (pages.foldl ScanState.advance .initial).serial = some serial ∧
        (pages.foldl ScanState.advance .initial).finalGranule = some granule) ↔
      Container pages ⟨serial, granule⟩ := by
  cases pages with
  | nil =>
    constructor
    · rintro ⟨-, hserial, -⟩
      cases hserial
    · intro h
      exact absurd rfl h.nonempty
  | cons first rest =>
    rw [List.length_cons] at hfits
    have hcontinuation : AdmitsAll (ScanState.initial.advance first) rest ↔
        Continuation (ScanState.initial.advance first) first.serial rest :=
      admitsAll_iff_continuation rfl (by simp only [ScanState.advance, ScanState.initial]; omega)
    have hsecond : (ScanState.initial.advance first).expectedSequence = 1 := rfl
    have hordered (h : (ScanState.initial.trail (first :: rest)).IsChain (· ≤ ·)) :
        (positions (first :: rest)).Pairwise (· ≤ ·) := List.isChain_iff_pairwise.mp h
    constructor
    · rintro ⟨⟨hfirst, hall⟩, hserial, hgranule⟩
      have hrest := hcontinuation.mp hall
      have hends : ∀ i (page : Page), (first :: rest)[i]? = some page → page.EndsStream →
          i + 1 = (first :: rest).length ∧ page.granule ≠ NO_GRANULE_POSITION := by
        refine forall_getElem?_cons.mpr ⟨fun heos => ?_, fun i page hpage heos => ?_⟩
        · obtain ⟨rfl, hposition⟩ := hfirst.ends heos
          exact ⟨rfl, hposition⟩
        · obtain ⟨hlast, hposition⟩ := hrest.ends i page hpage heos
          exact ⟨by rw [List.length_cons, hlast], hposition⟩
      obtain ⟨last, hlast, heos, hlastGranule⟩ :=
        (foldl_finalGranule_eq_some rfl fun i page hpage heos => (hends i page hpage heos).1).mp hgranule
      have hlastIndex : (first :: rest)[rest.length]? = some last := by
        rw [List.getLast?_eq_getElem?] at hlast
        simpa using hlast
      obtain rfl : first.serial = serial := by
        have hfold : (rest.foldl ScanState.advance (ScanState.initial.advance first)).serial = some first.serial :=
          foldl_serial rfl fun page hpage => (hrest.belongs page hpage).1
        exact Option.some.inj (hfold.symm.trans hserial)
      exact
        { nonempty := by simp
          serial_eq := List.forall_mem_cons.mpr ⟨rfl, fun page hpage => (hrest.belongs page hpage).1⟩
          begins_iff := forall_getElem?_cons.mpr ⟨iff_of_true (hfirst.begins rfl).1 rfl, fun i page hpage =>
            iff_of_false (hrest.belongs page (List.mem_of_getElem? hpage)).2 (by omega)⟩
          first_not_continued := by
            rintro page ⟨⟩
            exact (hfirst.begins rfl).2
          sequence_eq := forall_getElem?_cons.mpr ⟨hfirst.sequence_eq, fun i page hpage => by
            rw [hrest.sequence_eq i page hpage, hsecond, Nat.add_comm]⟩
          granule_iff := List.forall_mem_cons.mpr ⟨hfirst.granule_iff, hrest.granule_iff⟩
          granules_ordered := hordered (trail_cons.mpr ⟨hfirst.granule_le, hrest.ordered⟩)
          ends_iff := fun i page hpage => by
            refine ⟨fun heos => (hends i page hpage heos).1, fun hlength => ?_⟩
            obtain rfl : i = rest.length := by simpa using hlength
            obtain rfl : last = page := Option.some.inj (hlastIndex.symm.trans hpage)
            exact heos
          final_granule := ⟨last, hlast, hlastGranule⟩
          final_position := by
            rw [← hlastGranule]
            exact (hends _ last hlastIndex heos).2 }
    · intro h
      obtain ⟨hserialFirst, hserialRest⟩ := List.forall_mem_cons.mp h.serial_eq
      obtain ⟨hbeginsFirst, hbeginsRest⟩ := forall_getElem?_cons.mp h.begins_iff
      obtain ⟨hsequenceFirst, hsequenceRest⟩ := forall_getElem?_cons.mp h.sequence_eq
      obtain ⟨hgranuleFirst, hgranuleRest⟩ := List.forall_mem_cons.mp h.granule_iff
      obtain ⟨last, hlast, hlastGranule⟩ := h.final_granule
      have hlastIndex : (first :: rest)[rest.length]? = some last := by
        rw [List.getLast?_eq_getElem?] at hlast
        simpa using hlast
      have hends : ∀ i (page : Page), (first :: rest)[i]? = some page → page.EndsStream →
          i + 1 = (first :: rest).length ∧ page.granule ≠ NO_GRANULE_POSITION := by
        intro i page hpage heos
        have hlength := (h.ends_iff i page hpage).mp heos
        obtain rfl : i = rest.length := by simpa using hlength
        obtain rfl : last = page := Option.some.inj (hlastIndex.symm.trans hpage)
        exact ⟨hlength, by rw [hlastGranule]; exact h.final_position⟩
      obtain ⟨hendsFirst, hendsRest⟩ := forall_getElem?_cons.mp hends
      have htrail : (ScanState.initial.trail (first :: rest)).IsChain (· ≤ ·) :=
        List.isChain_iff_pairwise.mpr h.granules_ordered
      obtain ⟨hle, hordered⟩ := trail_cons.mp htrail
      have hbelongs : ∀ page ∈ rest, page.serial = first.serial ∧ ¬ page.BeginsStream := by
        intro page hpage
        obtain ⟨i, hi⟩ := List.mem_iff_getElem?.mp hpage
        exact ⟨(hserialRest page hpage).trans hserialFirst.symm,
          fun hbegins => absurd ((hbeginsRest i page hi).mp hbegins) (by omega)⟩
      refine ⟨⟨⟨hgranuleFirst, fun _ => ⟨hbeginsFirst.mpr rfl, h.first_not_continued first rfl⟩,
        fun _ hnone => (nomatch hnone), hsequenceFirst, by simp only [ScanState.initial]; omega, hle,
        fun heos => ?_⟩, hcontinuation.mpr ⟨hgranuleRest, hbelongs, fun i page hpage => ?_, hordered,
          fun i page hpage heos => ?_⟩⟩, ?_, ?_⟩
      · obtain ⟨hlength, hposition⟩ := hendsFirst heos
        exact ⟨List.length_eq_zero_iff.mp (by simpa using hlength.symm), hposition⟩
      · rw [hsequenceRest i page hpage, hsecond, Nat.add_comm]
      · obtain ⟨hlength, hposition⟩ := hendsRest i page hpage heos
        exact ⟨by simpa using hlength, hposition⟩
      · have hfirst : first.serial = serial := hserialFirst
        rw [← hfirst, List.foldl_cons]
        exact foldl_serial rfl fun page hpage => (hbelongs page hpage).1
      · refine (foldl_finalGranule_eq_some rfl fun i page hpage heos => (hends i page hpage heos).1).mpr ?_
        exact ⟨last, hlast, (h.ends_iff _ last hlastIndex).mpr rfl, hlastGranule⟩

/-- The scan returns a summary exactly for the uploads of its size which are the pages of one complete stream,
and it reads no index out of bounds. -/
theorem scanContainer_exact (input : List UInt8) :
    Checked.InBounds (scanContainer input) ∧
      ∀ summary, scanContainer input = pure summary ↔
        (1 ≤ input.length ∧ input.length ≤ 64 * 1024 * 1024) ∧
          ∃ pages, input = encodePages pages ∧ Container pages summary := by
  refine ⟨scanContainer_inBounds input, fun summary => ?_⟩
  obtain ⟨serial, granule⟩ := summary
  have hsize : ¬ (input = [] ∨ input.length > MAX_OGG_OPUS_BYTES) ↔
      1 ≤ input.length ∧ input.length ≤ 64 * 1024 * 1024 := by
    rw [not_or, Nat.not_lt, ← List.length_eq_zero_iff, Nat.one_le_iff_ne_zero]
    rfl
  rw [scanContainer, Checked.ite_throw_eq_pure, hsize]
  refine and_congr_right fun hlength => ?_
  have hinput : input.length ≤ U64.MAX := hlength.2.trans (by decide)
  simp only [Checked.bind_eq_pure, Checked.elim_eq_pure, Checked.pure_inj,
    scanPages_eq_pure hinput (show ScanState.initial.offset ≤ input.length from Nat.zero_le _)]
  have hfits {pages : List Page} (h : input = encodePages pages) : pages.length ≤ U32_MAX := by
    have hle := length_encodePages_ge pages
    rw [← h] at hle
    unfold U32_MAX
    omega
  constructor
  · rintro ⟨final, ⟨pages, hbytes, hall, rfl⟩, _, hserial, _, hgranule, hsummary⟩
    cases hsummary
    exact ⟨pages, hbytes, (admitsAll_iff_container (hfits hbytes)).mp ⟨hall, hserial, hgranule⟩⟩
  · rintro ⟨pages, hbytes, hcontainer⟩
    obtain ⟨hall, hserial, hgranule⟩ := (admitsAll_iff_container (hfits hbytes)).mpr hcontainer
    exact ⟨_, ⟨pages, hbytes, hall, rfl⟩, serial, hserial, granule, hgranule, rfl⟩

end Grammar

end Voicetext.Audio.OggOpus
