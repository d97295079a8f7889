import Mathlib.Tactic.FinCases
import Voicetext.Gateway.BatchRecognizers
import Voicetext.Gateway.Runs
import Voicetext.Gateway.SubmissionFence

/-!
# A job is paid for at most once

Every provider call of the gateway is an exchange of its adapter. A provider which accepts nothing it has not been
sent, and nothing it refuses by the status of its answer, accepts at most one request of a job: a call whose request
may have been accepted reports an outcome which licenses no other call, and before it reports one there is none.
-/

namespace Voicetext.Gateway

open Voicetext.Common Voicetext.Speech.Domain Voicetext.Speech.Application Voicetext.Providers
open Voicetext.Gateway.Storage

variable {ι : Type*}

section Histories

variable {codec : UuidCodec} {history : List (GatewayEvent ι)} {c d : ι} {s₁ s₂ : BatchJobSnapshot}
  {r₁ r₂ : BatchRecognitionRequest} {o₁ o₂ : Recognition}

/-- An outcome which licenses another submission. -/
def Licenses (outcome : Recognition) : Prop :=
  ∃ code reference delay, outcome = .error (.knownNotAccepted true code reference delay)

/-- Of two elements of a list one is before the other. -/
theorem exists_split_of_mem {α : Type*} {xs : List α} {x y : α} (hx : x ∈ xs) (hy : y ∈ xs) (hne : x ≠ y) :
    (∃ front between back, xs = front ++ x :: (between ++ y :: back)) ∨
      ∃ front between back, xs = front ++ y :: (between ++ x :: back) := by
  obtain ⟨front, back, rfl⟩ := List.append_of_mem hx
  rcases List.mem_append.mp hy with hfront | hback
  · obtain ⟨front, between, rfl⟩ := List.append_of_mem hfront
    exact .inr ⟨front, between, back, by simp⟩
  · rcases List.mem_cons.mp hback with rfl | hback
    · exact absurd rfl hne
    · obtain ⟨between, back, rfl⟩ := List.append_of_mem hback
      exact .inl ⟨front, between, back, rfl⟩

/-- Provider calls for one job which license no other are one call. -/
theorem Justified.eq_of_unlicensed (hjust : Justified codec history)
    (hc : .recognized c (some s₁) r₁ o₁ ∈ history) (hd : .recognized d (some s₂) r₂ o₂ ∈ history)
    (hid : s₁.id = s₂.id) (h₁ : ¬ Licenses o₁) (h₂ : ¬ Licenses o₂) : c = d := by
  by_contra hne
  have hevents : GatewayEvent.recognized c (some s₁) r₁ o₁ ≠ .recognized d (some s₂) r₂ o₂ := fun h => by
    cases h
    exact hne rfl
  rcases exists_split_of_mem hc hd hevents with ⟨newer, between, older, rfl⟩ | ⟨newer, between, older, rfl⟩
  · obtain ⟨_, _, _, _, _, _, hlicense⟩ := (Justified.suffix newer hjust).recognized_fence hid.symm
    exact h₂ hlicense
  · obtain ⟨_, _, _, _, _, _, hlicense⟩ := (Justified.suffix newer hjust).recognized_fence hid
    exact h₁ hlicense

/-- The call which went to the provider held a claim. -/
theorem Justified.claimed_of_recognized (hjust : Justified codec history) {claimed : Option BatchJobSnapshot}
    (h : .recognized c claimed r₁ o₁ ∈ history) : ∃ row, claimed = some row := by
  obtain ⟨newer, older, rfl⟩ := List.append_of_mem h
  obtain ⟨-, ⟨row, _, hrow, -, -⟩, -⟩ := Justified.suffix newer hjust
  exact ⟨row, hrow⟩

end Histories

section Exchanges

variable [DecidableEq ι] {config : GatewayConfig} {calls : ι → GatewayCall} {s : GatewayState ι}

/-- The exchanges behind the provider calls of a state: those which are answered went to their end, and those which
are awaited, by a call which waits or was cut off, have come as far as they have. -/
structure Exchanges (libraries : ProviderLibraries) (credential : BatchAdapter → List UInt8)
    (adapter : ι → BatchAdapter) (fuel : ι → ℕ) (s : GatewayState ι) (logs : ι → List HttpEvent) : Prop where
  answered : ∀ i claimed request outcome, .recognized i claimed request outcome ∈ s.world.history →
    Task.Solo HttpServes [] ((adapter i).recognize libraries (credential (adapter i)) request (fuel i)) (logs i) outcome
  awaited : ∀ i request resume, s.pool i = .await (.recognize request) resume →
    Task.Stops HttpServes [] ((adapter i).recognize libraries (credential (adapter i)) request (fuel i)) (logs i)
  absent : ∀ i, (∀ claimed request outcome, .recognized i claimed request outcome ∉ s.world.history) →
    (∀ request resume, s.pool i ≠ .await (.recognize request) resume) → logs i = []

/-- What a provider takes for paid work, by what has passed in an exchange. -/
structure Provider where
  accepts : List HttpEvent → Prop
  sent_of_accepts : ∀ log, accepts log → log ≠ []
  not_refused : ∀ log, accepts log → ∀ head, .answered head ∈ log → ¬ head.IsRefusal

variable {libraries : ProviderLibraries} {credential : BatchAdapter → List UInt8} {adapter : ι → BatchAdapter}
  {fuel : ι → ℕ} {logs : ι → List HttpEvent}

/-- A call which went to the provider and has not been licensed another submission. -/
def Unlicensed (s : GatewayState ι) (i : ι) : Prop :=
  (∃ claimed request outcome, .recognized i claimed request outcome ∈ s.world.history ∧ ¬ Licenses outcome) ∨
    ∃ request resume, s.pool i = .await (.recognize request) resume

omit [DecidableEq ι] in
/-- A call whose request has been accepted is not licensed another submission. -/
theorem Exchanges.unlicensed (h : Exchanges libraries credential adapter fuel s logs) (provider : Provider) {i : ι}
    (haccepts : provider.accepts (logs i)) : Unlicensed s i := by
  by_cases hanswered : ∃ claimed request outcome, .recognized i claimed request outcome ∈ s.world.history
  · obtain ⟨claimed, request, outcome, hrecognized⟩ := hanswered
    refine .inl ⟨claimed, request, outcome, hrecognized, ?_⟩
    rintro ⟨code, reference, delay, rfl⟩
    have htruthful := (recognize_keeps (adapter i) (credential (adapter i)) request (fuel i)).solo
      (h.answered i claimed request _ hrecognized)
    rcases htruthful.notAccepted _ _ _ _ rfl with hempty | ⟨head, hrefusal, hprefix⟩
    · exact provider.sent_of_accepts _ haccepts hempty
    · exact provider.not_refused _ haccepts head (List.IsPrefix.subset hprefix (by simp)) hrefusal
  · by_cases hawaited : ∃ request resume, s.pool i = .await (.recognize request) resume
    · exact .inr hawaited
    · simp only [not_exists] at hanswered hawaited
      exact absurd (h.absent i hanswered hawaited) (provider.sent_of_accepts _ haccepts)

/-- An unlicensed call has reported, or may report next, an outcome which licenses no other. -/
theorem Unlicensed.reports {i : ι} (h : Unlicensed s i) (hreach : Reachable config unrestricted calls s) :
    ∃ s', Reachable config unrestricted calls s' ∧ s.world.history ⊆ s'.world.history ∧
      (∀ j, j ≠ i → s'.pool j = s.pool j) ∧
        ∃ claimed request outcome, .recognized i claimed request outcome ∈ s'.world.history ∧ ¬ Licenses outcome := by
  rcases h with hreported | ⟨request, resume, hawait⟩
  · exact ⟨s, hreach, List.Subset.refl _, fun _ _ => rfl, hreported⟩
  · -- whoever waits for the provider may be told that the outcome is unknown
    have hserved := hreach.later (.single (.serve hawait
      ⟨.answers (.error (.unknownAfterSend "PROVIDER_OUTCOME_UNKNOWN" none)), trivial, rfl⟩))
    refine ⟨_, hserved, List.subset_cons_self _ _, fun j hj => Function.update_of_ne hj _ _, _, request, _,
      List.mem_cons_self, ?_⟩
    rintro ⟨code, reference, delay, houtcome⟩
    cases houtcome

omit [DecidableEq ι] in
/-- What is left of an unlicensed call when another one has reported. -/
theorem Unlicensed.mono {s' : GatewayState ι} {i : ι} (h : Unlicensed s i)
    (hhistory : s.world.history ⊆ s'.world.history) (hpool : s'.pool i = s.pool i) : Unlicensed s' i := by
  rcases h with ⟨claimed, request, outcome, hrecognized, houtcome⟩ | ⟨request, resume, hawait⟩
  · exact .inl ⟨claimed, request, outcome, hhistory hrecognized, houtcome⟩
  · exact .inr ⟨request, resume, hpool.trans hawait⟩

/-- Unlicensed executions of one job are one execution. -/
theorem Reachable.eq_of_unlicensed (hreach : Reachable config unrestricted calls s) {c d : ι} {id : BatchJobId}
    {projection projection' : BatchResultProjection} (hc : calls c = .execute id projection)
    (hd : calls d = .execute id projection') (hopen : Unlicensed s c) (hopen' : Unlicensed s d) : c = d := by
  by_contra hne
  obtain ⟨s₁, hreach₁, hhistory₁, hpool₁, claimed₁, r₁, o₁, hrecognized₁, ho₁⟩ := hopen.reports hreach
  obtain ⟨s₂, hreach₂, hhistory₂, -, claimed₂, r₂, o₂, hrecognized₂, ho₂⟩ :=
    (hopen'.mono hhistory₁ (hpool₁ d (Ne.symm hne))).reports hreach₁
  replace hrecognized₁ := hhistory₂ hrecognized₁
  have hinv := hreach₂.inv
  obtain ⟨row₁, rfl⟩ := hinv.justified.claimed_of_recognized hrecognized₁
  obtain ⟨row₂, rfl⟩ := hinv.justified.claimed_of_recognized hrecognized₂
  obtain ⟨_, hbought₁⟩ := (hinv.bought c row₁ r₁ o₁ hrecognized₁).executes
  obtain ⟨_, hbought₂⟩ := (hinv.bought d row₂ r₂ o₂ hrecognized₂).executes
  have hid₁ : id = row₁.id := (GatewayCall.execute.inj (hc.symm.trans hbought₁)).1
  have hid₂ : id = row₂.id := (GatewayCall.execute.inj (hd.symm.trans hbought₂)).1
  exact hne (hinv.justified.eq_of_unlicensed hrecognized₁ hrecognized₂ (hid₁.symm.trans hid₂) ho₁ ho₂)

/-- Whatever calls run concurrently, however the ledger, the spool and the network fail and whoever is cut off, a
provider accepts the request of at most one execution of a job. -/
theorem Reachable.paidOnce (hreach : Reachable config unrestricted calls s)
    (hexchanges : Exchanges libraries credential adapter fuel s logs) (provider : Provider) {c d : ι} {id : BatchJobId}
    {projection projection' : BatchResultProjection} (hc : calls c = .execute id projection)
    (hd : calls d = .execute id projection') (haccepts : provider.accepts (logs c))
    (haccepts' : provider.accepts (logs d)) : c = d :=
  hreach.eq_of_unlicensed hc hd (hexchanges.unlicensed provider haccepts) (hexchanges.unlicensed provider haccepts')

end Exchanges

section Samples

/-- One admission of the sample job and two executions of it. -/
def limitedCalls : Fin 3 → GatewayCall
  | 0 => .admitBatch sampleRequest
  | 1 | 2 => .execute sampleId sampleProjection

/-- What the executions ask of the provider. -/
def limitedRequest : BatchRecognitionRequest := ⟨sampleProfile, [1, 2], 1000, []⟩

/-- The first execution is limited, and the request of the second is lost on its way. -/
def limitedFailure : Fin 3 → RecognitionFailure
  | 1 => .knownNotAccepted true "DEEPGRAM_RATE_LIMITED" (some ⟨"request-429", some .requestId⟩) (some 7000)
  | 0 | 2 => .unknownAfterSend "DEEPGRAM_NETWORK_ERROR" none

def limitedWire : HttpRequest := BatchAdapter.deepgram.wireRequest [] limitedRequest

def limitedLogs : Fin 3 → List HttpEvent
  | 0 => []
  | 1 => [.sent limitedWire, .answered limitedHead, .ended]
  | 2 => [.sent limitedWire]

/-- A provider which accepts whatever it has been sent and has not refused. -/
def eagerProvider : Provider where
  accepts log := log ≠ [] ∧ ∀ head, .answered head ∈ log → ¬ head.IsRefusal
  sent_of_accepts _ h := h.1
  not_refused _ h := h.2

/-- Both executions have been to the provider, with the sample outcomes, and no call waits for it. -/
def limitedExchanges (s : GatewayState (Fin 3)) : Bool :=
  (s.world.history.all fun event => match event with
    | .recognized i _ request (.error failure) => i ≠ 0 && request = limitedRequest && failure = limitedFailure i
    | .recognized _ _ _ (.ok _) => false
    | _ => true) &&
  ([0, 1, 2].all fun i => !(s.pool i matches .await (.recognize _) _)) &&
  [1, 2].all fun i => s.world.history.any fun event => match event with
    | .recognized j _ _ _ => j = i
    | _ => false

theorem exchanges_of_limitedExchanges {s : GatewayState (Fin 3)} (h : limitedExchanges s = true) :
    Exchanges plainLibraries (fun _ => []) (fun _ => .deepgram) (fun _ => 1) s limitedLogs := by
  simp only [limitedExchanges, Bool.and_eq_true] at h
  obtain ⟨⟨hhistory, hpool⟩, hboth⟩ := h
  refine ⟨?_, ?_, ?_⟩
  · intro i claimed request outcome hrecognized
    have hevent := List.all_eq_true.mp hhistory _ hrecognized
    cases outcome with
    | ok result => cases hevent
    | error failure =>
      simp only [Bool.and_eq_true, decide_eq_true_eq] at hevent
      obtain ⟨⟨hne, rfl⟩, rfl⟩ := hevent
      fin_cases i
      · exact absurd rfl hne
      · exact solo_of_failedThrough [.transmitted, .answers limitedHead, .ends] (by decide +kernel)
      · exact solo_of_failedThrough [.transmitted, .breaks] (by decide +kernel)
  · intro i request resume hawait
    have hidle := List.all_eq_true.mp hpool i (by fin_cases i <;> decide)
    rw [hawait] at hidle
    cases hidle
  · intro i hnever _
    by_cases hi : i = 0
    · exact hi ▸ rfl
    · have hcalled := List.all_eq_true.mp hboth i (by fin_cases i <;> simp_all)
      obtain ⟨event, hevent, hmine⟩ := List.any_eq_true.mp hcalled
      cases event with
      | recognized j claimed request outcome =>
        obtain rfl := of_decide_eq_true hmine
        exact absurd hevent (hnever _ _ _)
      | _ => cases hmine

/-- The job of a limited request is retried, and its provider accepts the second request only. -/
theorem paidOnce_limited : ∃ s : GatewayState (Fin 3), Reachable sampleGateway unrestricted limitedCalls s ∧
    eagerProvider.accepts (limitedLogs 2) ∧
      ∀ c projection, limitedCalls c = .execute sampleId projection → eagerProvider.accepts (limitedLogs c) → c = 2 := by
  obtain ⟨s, hreach, hobserved⟩ := exists_reachable_of_schedule sampleGateway unrestricted
    limitedCalls (fun _ _ _ _ => true)
    [(0, .served), (0, .served), (0, .served), (0, .served), (1, .served), (1, .served), (1, .served),
      (1, .answers (.error (limitedFailure 1))), (1, .served), (2, .served), (2, .served), (2, .served),
      (2, .answers (.error (limitedFailure 2))), (2, .served), (2, .served)]
    limitedExchanges (fun _ _ _ _ _ => trivial) (by decide +kernel)
  have haccepts : eagerProvider.accepts (limitedLogs 2) := ⟨nofun, fun head hhead => by simp [limitedLogs] at hhead⟩
  exact ⟨s, hreach, haccepts, fun c projection hc haccepts' =>
    hreach.paidOnce (exchanges_of_limitedExchanges hobserved) eagerProvider hc rfl haccepts' haccepts⟩

end Samples

end Voicetext.Gateway
