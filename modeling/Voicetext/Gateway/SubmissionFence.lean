import Voicetext.Gateway.History

/-!
# The submission fence of a justified history

Between two provider calls for one job the ledger held a retryable row which the earlier call wrote
from its own known-not-accepted outcome. The induction follows the latest row after a claim: it
stays the claim, becomes terminal for good, or was made retryable by the claim's own author.
-/

namespace Voicetext.Gateway

open Voicetext.Common Voicetext.Speech.Domain Voicetext.Speech.Application Voicetext.Gateway.Storage

variable {ι : Type*} {codec : UuidCodec} {past : List (GatewayEvent ι)} {call : ι}
  {row claimed : BatchJobSnapshot} {n : NonZeroU32}

/-- Any earlier point of a justified history is justified. -/
theorem Justified.suffix (newer : List (GatewayEvent ι)) (h : Justified codec (newer ++ past)) :
    Justified codec past := by
  induction newer with
  | nil => exact h
  | cons event rest ih => exact ih h.1

/-- A durable claim follows an actionable row and counts one attempt more. -/
theorem Justified.claim_follows (hjust : Justified codec (.wrote call claimed :: past))
    (hstate : claimed.job.state = .submitting n) :
    ∃ prev, latest claimed.id past = some prev ∧ prev.job.state.isActionable = true ∧
      n.get = prev.job.state.attempts + 1 := by
  rcases hjust.2 with hfresh | ⟨prev, replacement, hfollows⟩
  · have haccepted := hfresh.state
    rw [hstate] at haccepted
    cases haccepted
  · have hreplacement : replacement.job.state = .submitting n := by
      rw [hfollows.row_eq] at hstate
      exact hstate
    refine ⟨prev, hfollows.latest_eq, ?_⟩
    rcases hfollows.proposes.replaces.attempts with ⟨hactionable, hattempts, _⟩ | ⟨_, _, hnot⟩
    · rw [hreplacement] at hattempts
      exact ⟨hactionable, hattempts⟩
    · exact absurd ⟨n, hreplacement⟩ hnot

/-- A retryable row records its author's own known-not-accepted outcome of the claim it replaces. -/
theorem Justified.retryable_recognized (hjust : Justified codec past) {failure : BatchFailure}
    (hrow : .wrote call row ∈ past) (hstate : row.job.state = .retryable n failure) :
    ∃ claimed request code reference delay,
      GatewayEvent.recognized call (some claimed) request
          (.error (.knownNotAccepted true code reference delay)) ∈ past ∧
        claimed.id = row.id ∧ claimed.job.state = .submitting n := by
  induction past with
  | nil => cases hrow
  | cons event rest ih =>
    rcases List.mem_cons.mp hrow with rfl | hrow
    · rcases hjust.2 with hfresh | ⟨prev, replacement, hfollows⟩
      · have haccepted := hfresh.state
        rw [hstate] at haccepted
        cases haccepted
      · have hid := hfollows.sameJob.1.id
        have hreplacement : replacement.job.state = .retryable n failure := by
          rw [hfollows.row_eq] at hstate
          exact hstate
        cases hfollows.proposes with
        | claim h =>
          obtain ⟨m, _, _, rfl⟩ := claim_ok h
          cases hreplacement
        | interrupted hprev =>
          rw [recovered_of_submitting hprev] at hreplacement
          cases hreplacement
        | outcome hprev _ hrecognized h =>
          cases h with
          | retryable code reference delay =>
            cases hreplacement
            exact ⟨prev, _, code, reference, delay, List.mem_cons_of_mem _ hrecognized, hid.symm, hprev⟩
          | completed | refused | failed | unknown => cases hreplacement
    · obtain ⟨claimed, request, code, reference, delay, hmem, h⟩ := ih hjust.1 hrow
      exact ⟨claimed, request, code, reference, delay, List.mem_cons_of_mem _ hmem, h⟩

/-- After a claim the latest row is the claim, terminal, or was made retryable by its author. -/
theorem Justified.after_claim (hjust : Justified codec past) (hclaimed : .wrote call claimed ∈ past)
    (hstate : claimed.job.state = .submitting n) :
    latest claimed.id past = some claimed ∨
      (∃ row, latest claimed.id past = some row ∧ row.job.state.isTerminal = true) ∨
      ∃ row failure, .wrote call row ∈ past ∧ row.id = claimed.id ∧
        row.job.state = .retryable n failure := by
  induction past with
  | nil => cases hclaimed
  | cons event rest ih =>
    rcases List.mem_cons.mp hclaimed with rfl | hold
    · exact .inl (latest_wrote_self call claimed rest)
    by_cases hsame : ∃ writer version, event = .wrote writer version ∧ version.id = claimed.id
    · obtain ⟨writer, version, rfl, hid⟩ := hsame
      have hlatest : latest claimed.id (.wrote writer version :: rest) = some version := by
        rw [← hid]
        exact latest_wrote_self writer version rest
      have hfollows : ∃ prev replacement, Follows writer rest version prev replacement := by
        rcases hjust.2 with hfresh | hfollows
        · obtain ⟨current, hcurrent, _⟩ := hjust.1.precedes ⟨call, hold⟩
          have habsent := hfresh.absent
          rw [hid, hcurrent] at habsent
          cases habsent
        · exact hfollows
      obtain ⟨prev, replacement, hfollows⟩ := hfollows
      have hprev := hfollows.latest_eq
      rw [hid] at hprev
      rcases ih hjust.1 hold with hcurrent | ⟨current, hcurrent, hterminal⟩ | ⟨row, failure, hrow, h⟩
      · -- the claim itself is replaced: only its author can make it retryable
        rw [hcurrent] at hprev
        obtain rfl := Option.some.inj hprev
        have hversion : version.job.state = replacement.job.state := by rw [hfollows.row_eq]; rfl
        cases hfollows.proposes with
        | claim h =>
          obtain ⟨m, hactionable, _⟩ := claim_ok h
          simp [hstate, BatchJobState.isActionable] at hactionable
        | interrupted hprev =>
          refine .inr (.inl ⟨version, hlatest, ?_⟩)
          rw [hversion, recovered_of_submitting hprev]
          rfl
        | outcome hprev hwrote _ h =>
          obtain ⟨rfl, _⟩ := hjust.1.wrote_unique hold hwrote rfl rfl
          cases h with
          | retryable code reference delay =>
            rw [hstate] at hprev
            cases hprev
            exact .inr (.inr ⟨version, _, List.mem_cons_self, hid, hversion⟩)
          | completed | refused | failed | unknown => exact .inr (.inl ⟨version, hlatest, by rw [hversion]; rfl⟩)
      · rw [hcurrent] at hprev
        obtain rfl := Option.some.inj hprev
        have hnot := hfollows.not_terminal
        rw [hterminal] at hnot
        cases hnot
      · exact .inr (.inr ⟨row, failure, List.mem_cons_of_mem _ hrow, h⟩)
    · have hlatest : latest claimed.id (event :: rest) = latest claimed.id rest :=
        latest_cons_of_ne fun writer version heq hid => hsame ⟨writer, version, heq, hid⟩
      rw [hlatest]
      rcases ih hjust.1 hold with h | h | ⟨row, failure, hrow, h⟩
      · exact .inl h
      · exact .inr (.inl h)
      · exact .inr (.inr ⟨row, failure, List.mem_cons_of_mem _ hrow, h⟩)

/-- A later claim of the same job is licensed by a retryable row of the earlier claim's author. -/
theorem Justified.claim_licensed {later : BatchJobSnapshot} {author : ι} {m : NonZeroU32}
    (hjust : Justified codec (.wrote author later :: past)) (hlater : later.job.state = .submitting m)
    (hclaimed : .wrote call claimed ∈ past) (hstate : claimed.job.state = .submitting n)
    (hid : claimed.id = later.id) :
    n.get < m.get ∧ ∃ row failure, .wrote call row ∈ past ∧ row.id = claimed.id ∧
      row.job.state = .retryable n failure := by
  obtain ⟨prev, hprev, hactionable, hattempt⟩ := hjust.claim_follows hlater
  rw [← hid] at hprev
  obtain ⟨current, hcurrent, hprecedes⟩ := hjust.1.precedes ⟨call, hclaimed⟩
  rw [hprev] at hcurrent
  obtain rfl := Option.some.inj hcurrent
  have hle := hprecedes.attempts
  rw [hstate] at hle
  refine ⟨by rw [hattempt]; exact Nat.lt_succ_of_le hle, ?_⟩
  rcases hjust.1.after_claim hclaimed hstate with h | ⟨row, hrow, hterminal⟩ | h
  · rw [hprev] at h
    obtain rfl := Option.some.inj h
    simp [hstate, BatchJobState.isActionable] at hactionable
  · rw [hprev] at hrow
    obtain rfl := Option.some.inj hrow
    cases hrowState : prev.job.state <;>
      simp_all [BatchJobState.isActionable, BatchJobState.isTerminal]
  · exact h

/-- A call reaches the provider at most once. -/
theorem Justified.recognized_once (hjust : Justified codec past)
    {claimed claimed' : Option BatchJobSnapshot} {request request' : BatchRecognitionRequest}
    {outcome outcome' : Recognition}
    (h : .recognized call claimed request outcome ∈ past)
    (h' : .recognized call claimed' request' outcome' ∈ past) :
    claimed = claimed' ∧ request = request' ∧ outcome = outcome' := by
  induction past with
  | nil => cases h
  | cons event rest ih =>
    rcases List.mem_cons.mp h with rfl | hrest
    · rcases List.mem_cons.mp h' with heq | hrest'
      · cases heq
        exact ⟨rfl, rfl, rfl⟩
      · exact absurd hrest' (hjust.2.2 _ _ _)
    · rcases List.mem_cons.mp h' with rfl | hrest'
      · exact absurd hrest (hjust.2.2 _ _ _)
      · exact ih hjust.1 hrest hrest'

/-- Between two provider calls for one job, the earlier one wrote a retryable row from its own
known-not-accepted outcome, and attempts strictly increase. -/
theorem Justified.recognized_fence {between older : List (GatewayEvent ι)} {c d : ι}
    {s₁ s₂ : BatchJobSnapshot} {r₁ r₂ : BatchRecognitionRequest} {o₁ o₂ : Recognition}
    (hjust : Justified codec
      (.recognized d (some s₂) r₂ o₂ :: (between ++ .recognized c (some s₁) r₁ o₁ :: older)))
    (hid : s₁.id = s₂.id) :
    ∃ n m, s₁.job.state = .submitting n ∧ s₂.job.state = .submitting m ∧ n.get < m.get ∧
      (∃ row failure, .wrote c row ∈ between ∧ row.id = s₁.id ∧ row.job.state = .retryable n failure) ∧
      ∃ code reference delay, o₁ = .error (.knownNotAccepted true code reference delay) := by
  obtain ⟨hpast, ⟨_, m, hs₂, hm, hwrote₂⟩, hfirst₂⟩ := hjust
  obtain rfl := Option.some.inj hs₂
  have holder : Justified codec (.recognized c (some s₁) r₁ o₁ :: older) := Justified.suffix between hpast
  obtain ⟨_, ⟨_, n, hs₁, hn, hwrote₁⟩, hfirst₁⟩ := holder
  obtain rfl := Option.some.inj hs₁
  have hmem₁ : GatewayEvent.recognized c (some s₁) r₁ o₁ ∈
      between ++ .recognized c (some s₁) r₁ o₁ :: older := by simp
  have hwrote₁' : GatewayEvent.wrote c s₁ ∈ between ++ .recognized c (some s₁) r₁ o₁ :: older := by
    simp [hwrote₁]
  have hne : d ≠ c := by
    rintro rfl
    exact hfirst₂ _ _ _ hmem₁
  -- the earlier claim is the older row, else its own author had been to the provider before
  have horder : n.get < m.get ∧ ∃ row failure,
      GatewayEvent.wrote c row ∈ between ++ .recognized c (some s₁) r₁ o₁ :: older ∧ row.id = s₁.id ∧
        row.job.state = .retryable n failure := by
    obtain ⟨after₂, before₂, hsplit₂⟩ := List.append_of_mem hwrote₂
    rw [hsplit₂] at hwrote₁' hpast hfirst₂ ⊢
    rcases List.mem_append.mp hwrote₁' with hafter | hhere
    · obtain ⟨after₁, before₁, rfl⟩ := List.append_of_mem hafter
      have hclaim₁ : Justified codec (.wrote c s₁ :: (before₁ ++ .wrote d s₂ :: before₂)) :=
        Justified.suffix after₁ (by simpa using hpast)
      obtain ⟨_, row, failure, hrow, _, hstate⟩ :=
        hclaim₁.claim_licensed hn (List.mem_append_right _ List.mem_cons_self) hm hid.symm
      obtain ⟨claimed, request, code, reference, delay, hrecognized, _⟩ :=
        hclaim₁.1.retryable_recognized hrow hstate
      exact absurd (by simp at hrecognized ⊢; tauto) (hfirst₂ (some claimed) request _)
    · rcases List.mem_cons.mp hhere with heq | hbefore
      · cases heq
        exact absurd rfl hne
      · have hclaim₂ : Justified codec (.wrote d s₂ :: before₂) := Justified.suffix after₂ hpast
        obtain ⟨hlt, row, failure, hrow, h⟩ := hclaim₂.claim_licensed hm hbefore hn hid
        exact ⟨hlt, row, failure, List.mem_append_right _ (List.mem_cons_of_mem _ hrow), h⟩
  obtain ⟨hlt, row, failure, hrow, hrowId, hrowState⟩ := horder
  obtain ⟨claimed, request, code, reference, delay, hrecognized, _⟩ :=
    hpast.retryable_recognized hrow hrowState
  obtain ⟨_, _, houtcome⟩ := hpast.recognized_once hmem₁ hrecognized
  refine ⟨n, m, hn, hm, hlt, ⟨row, failure, ?_, hrowId, hrowState⟩, code, reference, delay, houtcome⟩
  rcases List.mem_append.mp hrow with hbetween | hrest
  · exact hbetween
  · rcases List.mem_cons.mp hrest with heq | hbefore
    · cases heq
    · -- a retryable row before the call would need a provider call of its author before that
      obtain ⟨claimed', request', _, _, _, hrecognized', _⟩ :=
        (Justified.suffix between hpast).1.retryable_recognized hbefore hrowState
      exact absurd hrecognized' (hfirst₁ _ _ _)

/-- With no provider call for the job in between, the later attempt is the very next one. -/
theorem Justified.recognized_consecutive {between older : List (GatewayEvent ι)} {c d : ι}
    {s₁ s₂ : BatchJobSnapshot} {r₁ r₂ : BatchRecognitionRequest} {o₁ o₂ : Recognition}
    {n m : NonZeroU32}
    (hjust : Justified codec
      (.recognized d (some s₂) r₂ o₂ :: (between ++ .recognized c (some s₁) r₁ o₁ :: older)))
    (hid : s₁.id = s₂.id) (hn : s₁.job.state = .submitting n) (hm : s₂.job.state = .submitting m)
    (hnone : ∀ e s r o, .recognized e (some s) r o ∈ between → s.id ≠ s₁.id) :
    m.get = n.get + 1 := by
  obtain ⟨n', m', hn', hm', hlt, _⟩ := hjust.recognized_fence hid
  obtain rfl : n = n' := by rw [hn] at hn'; cases hn'; rfl
  obtain rfl : m = m' := by rw [hm] at hm'; cases hm'; rfl
  obtain ⟨hpast, ⟨_, _, hs₂, _, hwrote₂⟩, _⟩ := hjust
  obtain rfl := Option.some.inj hs₂
  obtain ⟨after₂, before₂, hsplit₂⟩ := List.append_of_mem hwrote₂
  have hclaim₂ : Justified codec (.wrote d s₂ :: before₂) :=
    Justified.suffix after₂ (by rw [← hsplit₂]; exact hpast)
  obtain ⟨prev, hprev, hactionable, hattempt⟩ := hclaim₂.claim_follows hm
  obtain ⟨⟨writer, hwriter⟩, hprevId⟩ := held_of_latest hprev
  cases hprevState : prev.job.state with
  | submitting k => simp [hprevState, BatchJobState.isActionable] at hactionable
  | completed k => simp [hprevState, BatchJobState.isActionable] at hactionable
  | failed k failure => simp [hprevState, BatchJobState.isActionable] at hactionable
  | outcomeUnknown k reason => simp [hprevState, BatchJobState.isActionable] at hactionable
  | accepted =>
    have hpos := n.pos
    rw [hprevState] at hattempt
    simp only [BatchJobState.attempts] at hattempt
    omega
  | retryable k failure =>
    rw [hprevState] at hattempt
    simp only [BatchJobState.attempts] at hattempt
    obtain ⟨claimed, request, _, _, _, hrecognized, hclaimedId, hk⟩ :=
      hclaim₂.1.retryable_recognized hwriter hprevState
    have hmem := List.mem_append_right after₂ (List.mem_cons_of_mem (.wrote d s₂) hrecognized)
    rw [← hsplit₂] at hmem
    have hclaimedId' : claimed.id = s₁.id := hclaimedId.trans (hprevId.trans hid.symm)
    rcases List.mem_append.mp hmem with hbetween | hrest
    · exact absurd hclaimedId' (hnone _ _ _ _ hbetween)
    · rcases List.mem_cons.mp hrest with heq | hbefore
      · cases heq
        rw [hn] at hk
        cases hk
        exact hattempt
      · obtain ⟨middle, oldest, rfl⟩ := List.append_of_mem hbefore
        obtain ⟨k', n', hk', hn', hlt', _⟩ :=
          (Justified.suffix between hpast).recognized_fence hclaimedId'
        rw [hk] at hk'
        cases hk'
        rw [hn] at hn'
        cases hn'
        omega

/-- Submitted attempts never exceed the attempt at which the job became terminal. -/
theorem Justified.attempts_le_terminal {codec : UuidCodec} {past : List (GatewayEvent ι)}
    (hjust : Justified codec past) {row claimed : BatchJobSnapshot} {d : ι}
    {request : BatchRecognitionRequest} {outcome : Recognition} (hheld : Held past row)
    (hterminal : row.job.state.isTerminal = true) (hid : claimed.id = row.id)
    (hrecognized : .recognized d (some claimed) request outcome ∈ past) :
    claimed.job.state.attempts ≤ row.job.state.attempts := by
  obtain ⟨newer, older, rfl⟩ := List.append_of_mem hrecognized
  have holder : Justified codec (.recognized d (some claimed) request outcome :: older) :=
    Justified.suffix newer hjust
  obtain ⟨_, ⟨_, n, hclaimed, _, hwrote⟩, _⟩ := holder
  obtain rfl := Option.some.inj hclaimed
  obtain ⟨current, hcurrent, hprecedes⟩ := hjust.precedes hheld
  obtain rfl := hprecedes.terminal hterminal
  obtain ⟨current', hcurrent', hprecedes'⟩ :=
    hjust.precedes ⟨d, List.mem_append_right newer (List.mem_cons_of_mem _ hwrote)⟩
  rw [hid, hcurrent] at hcurrent'
  obtain rfl := Option.some.inj hcurrent'
  exact hprecedes'.attempts

end Voicetext.Gateway
