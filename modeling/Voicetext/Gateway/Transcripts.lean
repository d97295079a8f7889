import Voicetext.Gateway.PaidOnce

/-!
# Transcripts come from a provider

A completed row stores what one exchange has said: the whole body of a successful answer to the one request its
execution has posted, read by the adapter the execution was given.
-/

namespace Voicetext.Gateway

open Voicetext.Common Voicetext.Speech.Domain Voicetext.Speech.Application Voicetext.Providers
open Voicetext.Gateway.Storage

variable {ι : Type*}

section Histories

variable {codec : UuidCodec} {history : List (GatewayEvent ι)} {c : ι}

/-- A completed row stores its author's own result of the claim it replaces. -/
theorem Justified.completed_recognized {row : BatchJobSnapshot} {n : NonZeroU32} (hjust : Justified codec history)
    (hrow : .wrote c row ∈ history) (hstate : row.job.state = .completed n) :
    ∃ claimed request result, .recognized c (some claimed) request (.ok result) ∈ history ∧ SameJob claimed row ∧
      row.result = some { result with providerReference := result.providerReference.map untypedReference } := by
  induction history with
  | nil => cases hrow
  | cons event rest ih =>
    rcases List.mem_cons.mp hrow with rfl | hrow
    · rcases hjust.2 with hfresh | ⟨prev, replacement, hfollows⟩
      · have haccepted := hfresh.state
        rw [hstate] at haccepted
        cases haccepted
      · have hsame := hfollows.sameJob.1
        have hreplacement : replacement.job.state = .completed n := by
          rw [hfollows.row_eq] at hstate
          exact hstate
        cases hfollows.proposes with
        | claim h =>
          obtain ⟨m, _, _, rfl⟩ := claim_ok h
          cases hreplacement
        | interrupted hprev =>
          rw [recovered_of_submitting hprev] at hreplacement
          cases hreplacement
        | outcome hprev _ hrecognized h =>
          cases h with
          | completed result =>
            exact ⟨prev, _, result, List.mem_cons_of_mem _ hrecognized, hsame, by rw [hfollows.row_eq]; rfl⟩
          | retryable | refused | failed | unknown => cases hreplacement
    · obtain ⟨claimed, request, result, hmem, h⟩ := ih hjust.1 hrow
      exact ⟨claimed, request, result, List.mem_cons_of_mem _ hmem, h⟩

end Histories

section Exchanges

variable [DecidableEq ι] {config : GatewayConfig} {calls : ι → GatewayCall} {s : GatewayState ι}
  {libraries : ProviderLibraries} {credential : BatchAdapter → List UInt8} {adapter : ι → BatchAdapter}
  {fuel : ι → ℕ} {logs : ι → List HttpEvent}

/-- The transcript of a job is what a provider has said of it: every completed row any call has ever written stores
the result of one execution of its job, whose request with the terms of the row was posted once, answered with
success, and its body received to the end. -/
theorem Reachable.transcribed (hreach : Reachable config unrestricted calls s)
    (hexchanges : Exchanges libraries credential adapter fuel s logs) {row : BatchJobSnapshot} {n : NonZeroU32}
    (hheld : Held s.world.history row) (hstate : row.job.state = .completed n) :
    ∃ (i : ι) (request : BatchRecognitionRequest) (head : ResponseHead) (chunks : List (List UInt8))
      (result : BatchRecognitionResult), (∃ projection, calls i = .execute row.id projection) ∧
      (request.profile = row.job.profile ∧ request.authoritativeDurationMillis = row.authoritativeDurationMillis ∧
        request.keyterms = row.keyterms) ∧
      (adapter i).checkRequest request = .ok () ∧ head.isSuccess = true ∧
      logs i = [.sent ((adapter i).wireRequest (credential (adapter i)) request), .answered head] ++
        chunks.map .received ++ [.ended] ∧
      (adapter i).resultOf libraries request head chunks.flatten = .ok result ∧
      row.result = some { result with providerReference := result.providerReference.map untypedReference } := by
  obtain ⟨author, hwrote⟩ := hheld
  obtain ⟨claimed, request, result, hrecognized, hsame, hresult⟩ :=
    hreach.inv.justified.completed_recognized hwrote hstate
  have hbought := hreach.inv.bought author claimed request _ hrecognized
  have htruthful := (recognize_keeps (adapter author) (credential (adapter author)) request (fuel author)).solo
    (hexchanges.answered author _ request _ hrecognized)
  obtain ⟨head, chunks, hsuccess, hsaid, hlog⟩ := htruthful.recognized result rfl
  have hcheck : (adapter author).checkRequest request = .ok () := by
    cases hchecked : (adapter author).checkRequest request with
    | ok => rfl
    | error failure => cases (htruthful.unchecked failure hchecked).1
  refine ⟨author, request, head, chunks, result, ?_, ⟨?_, ?_, ?_⟩, hcheck, hsuccess, hlog, hsaid, hresult⟩
  · exact hsame.id ▸ hbought.executes
  · exact hbought.profile.trans hsame.profile.symm
  · exact hbought.duration.trans hsame.duration.symm
  · exact hbought.keyterms.trans hsame.keyterms.symm

end Exchanges

section Samples

/-- The body of an answer which says two letters in a second. -/
def greetingBody : List UInt8 := Text.asBytes
  ("\x7b\"metadata\":\x7b\"duration\":1\x7d,\"results\":\x7b\"channels\":[\x7b\"alternatives\":" ++
    "[\x7b\"transcript\":\"hi\"\x7d]\x7d],\"utterances\":[]\x7d\x7d")

/-- What the execution asks of the provider. -/
def greetingRequest : BatchRecognitionRequest := ⟨sampleProfile, [1, 2], 1000, []⟩

def greetingHead : ResponseHead := ⟨200, [], none⟩

def greetingResult : BatchRecognitionResult := ⟨sampleProfile, "hi", 1000, some 1000, [], some [], none⟩

/-- Whether an outcome is the greeting. -/
def isGreeting : Recognition → Bool
  | .ok result => result.profile = sampleProfile && (result.text = "hi" && (result.durationMillis = 1000 &&
      (result.providerDurationMillis = some 1000 && (result.segments.isEmpty &&
        (result.readableSegments = some [] && result.providerReference = none)))))
  | .error _ => false

theorem eq_of_isGreeting {outcome : Recognition} (h : isGreeting outcome = true) : outcome = .ok greetingResult := by
  cases outcome with
  | error failure => cases h
  | ok result =>
    simp only [isGreeting, Bool.and_eq_true, decide_eq_true_eq, List.isEmpty_iff] at h
    obtain ⟨hprofile, htext, hduration, hprovider, hsegments, hreadable, hreference⟩ := h
    cases result
    simp_all [greetingResult]

def greetingLog : List HttpEvent :=
  [.sent (BatchAdapter.deepgram.wireRequest [] greetingRequest), .answered greetingHead] ++ [greetingBody].map .received ++ [.ended]

theorem solo_greeting : Task.Solo HttpServes [] (BatchAdapter.deepgram.recognize plainLibraries [] greetingRequest 2)
    greetingLog (.ok greetingResult) := by
  obtain ⟨⟨log, outcome⟩, hrun, hobserved⟩ := (Option.any_eq_true
      (fun (run : List HttpEvent × Recognition) => decide (run.1 = greetingLog) && isGreeting run.2)
      (Task.replay serveHttp [.transmitted, .answers greetingHead, .yields greetingBody, .ends] []
        (BatchAdapter.deepgram.recognize plainLibraries [] greetingRequest 2))).mp (by decide +kernel)
  obtain ⟨hlog, houtcome⟩ := Bool.and_eq_true_iff.mp hobserved
  obtain rfl := of_decide_eq_true hlog
  obtain rfl := eq_of_isGreeting houtcome
  exact Task.solo_of_replay _ hrun

/-- One admission of the sample job and one execution of it. -/
def greetedCalls : Fin 2 → GatewayCall
  | 0 => .admitBatch sampleRequest
  | 1 => .execute sampleId sampleProjection

def greetedLogs (i : Fin 2) : List HttpEvent := if i = 1 then greetingLog else []

/-- The execution has been greeted, waits for nothing and has completed the job. -/
def greetedExchanges (s : GatewayState (Fin 2)) : Bool :=
  (s.world.history.all fun event => match event with
    | .recognized i _ request outcome => i = 1 && (request = greetingRequest && isGreeting outcome)
    | _ => true) &&
  ((s.world.history.any fun event => match event with
    | .recognized i _ _ _ => i = 1
    | _ => false) &&
  (([0, 1].all fun i => !(s.pool i matches .await (.recognize _) _)) &&
  (latest sampleId s.world.history).any fun row => decide (row.job.state = .completed .MIN)))

theorem exchanges_of_greetedExchanges {s : GatewayState (Fin 2)} (h : greetedExchanges s = true) :
    Exchanges plainLibraries (fun _ => []) (fun _ => .deepgram) (fun _ => 2) s greetedLogs ∧
      ∃ row, latest sampleId s.world.history = some row ∧ row.job.state = .completed .MIN := by
  simp only [greetedExchanges, Bool.and_eq_true, Option.any_eq_true, decide_eq_true_eq] at h
  obtain ⟨hhistory, hcalled, hpool, hrow⟩ := h
  refine ⟨⟨?_, ?_, ?_⟩, hrow⟩
  · intro i claimed request outcome hrecognized
    have hevent := List.all_eq_true.mp hhistory _ hrecognized
    simp only [Bool.and_eq_true, decide_eq_true_eq] at hevent
    obtain ⟨rfl, rfl, houtcome⟩ := hevent
    obtain rfl := eq_of_isGreeting houtcome
    exact solo_greeting
  · intro i request resume hawait
    have hidle := List.all_eq_true.mp hpool i (by fin_cases i <;> decide)
    rw [hawait] at hidle
    cases hidle
  · intro i hnever _
    by_cases hi : i = 1
    · obtain ⟨event, hevent, hmine⟩ := List.any_eq_true.mp hcalled
      cases event with
      | recognized j claimed request outcome =>
        obtain rfl := (of_decide_eq_true hmine).trans hi.symm
        exact absurd hevent (hnever _ _ _)
      | _ => cases hmine
    · exact if_neg hi

/-- A greeted job stores its greeting. -/
theorem transcribed_greeting : ∃ (s : GatewayState (Fin 2)) (row : BatchJobSnapshot) (request : BatchRecognitionRequest)
    (head : ResponseHead) (chunks : List (List UInt8)) (result : BatchRecognitionResult),
    Reachable sampleGateway unrestricted greetedCalls s ∧ Held s.world.history row ∧
      row.job.state = .completed .MIN ∧
      BatchAdapter.deepgram.resultOf plainLibraries request head chunks.flatten = .ok result ∧
      row.result = some { result with providerReference := result.providerReference.map untypedReference } := by
  obtain ⟨s, hreach, hobserved⟩ := exists_reachable_of_schedule sampleGateway unrestricted
    greetedCalls (fun _ _ _ _ => true)
    [(0, .served), (0, .served), (0, .served), (0, .served), (1, .served), (1, .served), (1, .served),
      (1, .answers (.ok greetingResult)), (1, .served), (1, .served)]
    greetedExchanges (fun _ _ _ _ _ => trivial) (by decide +kernel)
  obtain ⟨hexchanges, row, hlatest, hstate⟩ := exchanges_of_greetedExchanges hobserved
  have hheld := (held_of_latest hlatest).1
  obtain ⟨_, request, head, chunks, result, -, -, -, -, -, hsaid, hresult⟩ :=
    hreach.transcribed hexchanges hheld hstate
  exact ⟨s, row, request, head, chunks, result, hreach, hheld, hstate, hsaid, hresult⟩

end Samples

end Voicetext.Gateway
