import Voicetext.Gateway.RecoveryCall

/-!
# Runs of the batch gateway

Every call is secured when nothing has happened yet, so every reachable state satisfies the world
invariant, every returned call its postcondition and every pending operation its precondition. The
claims about whole runs are read off these three facts.
-/

namespace Voicetext.Gateway

open Voicetext.Common Voicetext.Speech.Domain Voicetext.Speech.Application Voicetext.Gateway.Storage

variable {ι : Type*} [DecidableEq ι] {config : GatewayConfig} {allowed : Environment ι}
  {calls : ι → GatewayCall} {s s' : GatewayState ι} {i : ι}

/-- What a call which returned has established. -/
structure Returned (config : GatewayConfig) (allowed : Environment ι) (calls : ι → GatewayCall) (i : ι)
    (result : CallResult) (w : GatewayWorld ι) : Prop where
  admission : ∀ request, calls i = .admitBatch request →
    ∃ answer, result = .admission answer ∧ AdmitPost config allowed i request answer w
  settled : Calm config allowed → Settled i w

/-- A cut-off call has established nothing. -/
def CallPost (config : GatewayConfig) (allowed : Environment ι) (calls : ι → GatewayCall) (i : ι) :
    Option CallResult → GatewayWorld ι → Prop
  | none, _ => True
  | some result, w => Returned config allowed calls i result w

/-- The program of every call is secured from its first step on. -/
theorem program_secured {w : GatewayWorld ι} (hown : own i w.history = [])
    (hinv : Inv config allowed calls w) :
    (gatewayProtocol config allowed calls).Secured i (CallPost config allowed calls i)
      ((calls i).program config.codec) w := by
  have hcleaned {result : CallResult} {w' : GatewayWorld ι} (hcall : (calls i).isAdmission = false)
      (h : CleanedUp config allowed i w') : Returned config allowed calls i result w' :=
    ⟨fun request hrequest => by simp [hrequest, GatewayCall.isAdmission] at hcall,
      fun hcalm => (h hcalm).settled⟩
  cases hcall : calls i with
  | admitBatch request =>
    have hadmission : (calls i).isAdmission = true := by rw [hcall]; rfl
    refine (admit_secured hown hinv hadmission request).map fun answer w' _ hpost => ?_
    refine ⟨fun other hother => ⟨answer, rfl, ?_⟩, hpost.settled⟩
    rw [hcall] at hother
    cases hother
    exact hpost
  | execute id projection =>
    exact (execute_secured hown hinv hcall).map fun _ _ _ h => hcleaned (by rw [hcall]; rfl) h
  | recoverStartup after =>
    exact (recoverStartup_secured hown hinv after).map fun _ _ _ h => hcleaned (by rw [hcall]; rfl) h
  | recoverStartupThrough after through =>
    exact (recoverStartupThrough_secured hown hinv after through).map fun _ _ _ h =>
      hcleaned (by rw [hcall]; rfl) h

/-- Every reachable state is safe: the protocol holds in every interleaving. -/
theorem Reachable.safe (h : Reachable config allowed calls s) :
    (gatewayProtocol config allowed calls).Safe (CallPost config allowed calls) s := by
  refine Protocol.Safe.reaches (fun _ _ => trivial) ?_ h
  exact ⟨Inv.initial, fun i => program_secured rfl Inv.initial⟩

/-- The world invariant holds in every reachable state. -/
theorem Reachable.inv (h : Reachable config allowed calls s) : Inv config allowed calls s.world :=
  h.safe.inv

/-- A returned call has established its postcondition. -/
theorem Reachable.returned (h : Reachable config allowed calls s) {result : CallResult}
    (hdone : s.pool i = .done (some result)) : Returned config allowed calls i result s.world :=
  h.safe.post_of_done hdone

/-- A pending operation meets its precondition. -/
theorem Reachable.pending (h : Reachable config allowed calls s) {op : GatewayOp} {resume}
    (hawait : s.pool i = .await op resume) : Pre calls i op s.world :=
  h.safe.pre_of_await hawait

/-- Later states are reachable too. -/
theorem Reachable.later (h : Reachable config allowed calls s)
    (hlater : PoolReaches (gatewayService config allowed) s s') : Reachable config allowed calls s' :=
  Relation.ReflTransGen.trans h hlater

/-- A narrower environment reaches fewer states. -/
theorem Reachable.mono {wider : Environment ι} (h : Reachable config allowed calls s)
    (hwider : ∀ i w op choice, allowed i w op choice → wider i w op choice) :
    Reachable config wider calls s := by
  refine PoolReaches.mono (fun i w op w' reply => ?_) h
  rintro ⟨choice, hallowed, hserve⟩
  exact ⟨choice, hwider i w op choice hallowed, hserve⟩

/-- Effects are never undone: along a run the history only grows. -/
theorem history_grows (hrun : PoolReaches (gatewayService config allowed) s s') :
    ∃ newer, s'.world.history = newer ++ s.world.history := by
  refine PoolReaches.invariant
    (fun state => ∃ newer, state.world.history = newer ++ s.world.history) ?_ hrun ⟨[], rfl⟩
  rintro before after ⟨newer, hnewer⟩ hstep
  cases hstep with
  | serve _ hserve =>
    obtain ⟨choice, _, hserve⟩ := hserve
    rcases serve_history hserve with heq | ⟨event, _, heq⟩
    · exact ⟨newer, heq.trans hnewer⟩
    · exact ⟨event :: newer, by rw [heq, hnewer, List.cons_append]⟩
  | cutOff => exact ⟨newer, hnewer⟩

section Schedules

/-- The server restricted to the choices a test permits. -/
def serveIf (config : GatewayConfig) (permits : ι → GatewayWorld ι → GatewayOp → ServerChoice → Bool)
    (call : ι) (w : GatewayWorld ι) (op : GatewayOp) (choice : ServerChoice) :
    Option (GatewayWorld ι × op.Reply) :=
  if permits call w op choice then serve config call w op choice else none

/-- Replaying an interleaving shows that some state with the observed property is reachable. -/
theorem exists_reachable_of_schedule (config : GatewayConfig) (allowed : Environment ι)
    (calls : ι → GatewayCall)
    (permits : ι → GatewayWorld ι → GatewayOp → ServerChoice → Bool) (schedule : List (ι × ServerChoice))
    (observes : GatewayState ι → Bool)
    (hallowed : ∀ i w op choice, permits i w op choice = true → allowed i w op choice)
    (hrun : (runSchedule (serveIf config permits) schedule
      (initialState config.codec calls)).any observes = true) :
    ∃ s, Reachable config allowed calls s ∧ observes s = true := by
  obtain ⟨s, hs, hobserves⟩ := (Option.any_eq_true _ _).mp hrun
  refine ⟨s, PoolReaches.mono (fun i w op w' reply => ?_) (poolReaches_of_runSchedule schedule hs), hobserves⟩
  rintro ⟨choice, hserve⟩
  unfold serveIf at hserve
  split at hserve
  · rename_i hpermits
    exact ⟨choice, hallowed i w op choice hpermits, hserve⟩
  · cases hserve

/-- The digest of the two bytes `01 02`, which is the only audio the sample runs store. -/
def sampleDigest : Sha256Digest where
  bytes := [0xa1, 0x28, 0x71, 0xfe, 0xe2, 0x10, 0xfb, 0x86, 0x19, 0x29, 0x1e, 0xae, 0xa1, 0x94, 0x58,
    0x1c, 0xbd, 0x25, 0x31, 0xe4, 0xb2, 0x37, 0x59, 0xd2, 0x25, 0xf6, 0x80, 0x69, 0x23, 0xf6, 0x32, 0x22]
  length_eq := rfl

/-- A gateway whose ledger encodes every snapshot and whose spool holds a few short recordings. -/
def sampleGateway : GatewayConfig where
  codec := .canonicalForms
  sha256 _ := sampleDigest
  maximumBytes := 16
  maximumTotalBytes := 64
  storable _ := .ok ()

/-- The identity of the sample job. -/
def sampleId : BatchJobId := ⟨"00000000-0000-4000-8000-000000000001"⟩

/-- The sample job's profile. -/
def sampleProfile : BatchProfile := .nova3Multi

/-- An admission of the sample job. -/
def sampleRequest : BatchAdmissionRequest where
  id := sampleId
  profile := sampleProfile
  fingerprint := ⟨List.replicate 32 0, rfl⟩
  audio := [1, 2]
  authoritativeDurationMillis := 1000
  keyterms := []

/-- A projection which represents every result. -/
def sampleProjection : BatchResultProjection := ⟨fun _ _ => .ok ()⟩

/-- A provider outcome which ends the sample job. -/
def sampleFailure : Recognition := .error (.knownAcceptedTerminal "PROVIDER_REJECTED" none)

end Schedules

end Voicetext.Gateway
