import Mathlib.Data.List.Basic
import Mathlib.Data.Nat.Notation
import Mathlib.Logic.Function.Basic

/-!
# Create-only publication of qualification records

Each observation is a blocking worker, which writes a record under a pending name and links it to its
final name, and a caller, which accepts the publication, misses the deadline or is dropped. The two
settle the outcome through a receipt. A step is one system call or one access to shared memory of one of
the parties, so every interleaving of every number of observations is a sequence of steps.
-/

namespace Voicetext.Gateway.Server

def MAX_OBSERVATIONS : ℕ := 64

def MAX_RECORD_BYTES : ℕ := 16 * 1024

/-- A failure code of the sink. -/
structure ObservationSinkFailure where
  code : String
deriving DecidableEq

inductive ReceiptState
  | active
  | cancelled
  | accepted
deriving DecidableEq

/-- One observation: the parts of its file names and its record, when that serializes. -/
structure Observation where
  mode : String
  effectId : String
  nonce : String
  record : Option (List UInt8)

def finalName (campaign : String) (observation : Observation) : String :=
  campaign ++ "-" ++ observation.mode ++ "-" ++ observation.effectId ++ ".json"

def temporaryName (campaign : String) (observation : Observation) : String :=
  "." ++ campaign ++ "-" ++ observation.mode ++ "-" ++ observation.effectId ++ "-" ++ observation.nonce ++
    ".pending"

/-- The system calls and checkpoints of `prepare_record`, in order. -/
inductive WorkerStep
  | checkpoint
  | createNew
  /-- `PublicationGuard::new` reads the identity of the created file. -/
  | inspect
  | writeAll
  | syncAll
  | hardLink
  /-- `remove_if_owned` looks at the pending name and then unlinks it. -/
  | inspectTemporary
  | unlinkTemporary
  | openDirectory
  | syncDirectory
deriving DecidableEq

/-- `prepare_record` once the record is serialized. -/
def prepareRecord : List WorkerStep :=
  [.checkpoint, .checkpoint, .createNew, .inspect, .checkpoint, .writeAll, .checkpoint, .syncAll, .checkpoint,
    .checkpoint, .hardLink, .checkpoint, .inspectTemporary, .unlinkTemporary, .checkpoint, .openDirectory,
    .checkpoint, .syncDirectory, .checkpoint]

/-- The failure a step reports. -/
def WorkerStep.failure : WorkerStep → ObservationSinkFailure
  | checkpoint => ⟨"QUALIFICATION_WRITE_TIMEOUT"⟩
  | createNew | inspect | hardLink => ⟨"QUALIFICATION_CREATE_FAILED"⟩
  | writeAll => ⟨"QUALIFICATION_WRITE_FAILED"⟩
  | syncAll | inspectTemporary | unlinkTemporary | openDirectory | syncDirectory =>
    ⟨"QUALIFICATION_SYNC_FAILED"⟩

/-- The worker of an observation. -/
inductive Worker
  | unspawned
  | queued
  /-- Inside `prepare_record`, with the steps that remain; a guard knows whether it has published. -/
  | preparing (rest : List WorkerStep) (published : Option Bool)
  /-- Dropping its guard: the names still to remove, whether the first was seen to be the guard's own, and
  the failure to report afterwards. -/
  | dropping (names : List String) (owned : Bool) (failure : Option ObservationSinkFailure)
  | sending (result : Except ObservationSinkFailure Unit)
  /-- Waiting for the caller with a published record. -/
  | waiting
  | finished
deriving DecidableEq

/-- The caller of an observation. -/
inductive Caller
  | idle
  /-- Over the limit, with its count still to be taken back. -/
  | overCounted
  /-- The future exists and was not polled yet. -/
  | unpolled
  | awaiting
  /-- Dropped while awaiting: the receiver is gone, the receipt still to be cancelled. -/
  | closing
  | dropped
  | returned (result : Except ObservationSinkFailure Unit)
deriving DecidableEq

/-- An observation under way. -/
structure ObservationState where
  caller : Caller := .idle
  worker : Worker := .unspawned
  receipt : ReceiptState := .active
  message : Option (Except ObservationSinkFailure Unit) := none
  /-- Whether the deadline has passed. -/
  expired : Bool := false
deriving DecidableEq

namespace ObservationState

/-- `PublicationReceipt::is_active_before`. -/
def isActiveBefore (o : ObservationState) : Bool := o.receipt = .active && !o.expired

/-- `PublicationReceipt::cancel`. -/
def cancel (o : ObservationState) : ObservationState :=
  { o with receipt := if o.receipt = .active then .cancelled else o.receipt }

/-- `PublicationReceipt::accept`, and what the caller returns for it. -/
def accept (o : ObservationState) : ObservationState :=
  if o.isActiveBefore then { o with receipt := .accepted, caller := .returned (.ok ()) }
  else { o.cancel with caller := .returned (.error ⟨"QUALIFICATION_WRITE_TIMEOUT"⟩) }

end ObservationState

/-- What a name leads to. An open file keeps its inode, so device and inode name one file to its guard: a
file is named here by the observation which created it, unless it was there before. -/
inductive FileId (ι : Type*)
  | foreign (inode : ℕ)
  | of (observation : ι)
deriving DecidableEq

/-- The sink, its directory and its observations. -/
structure SinkState (ι : Type*) where
  directory : String → Option (FileId ι)
  content : ι → List UInt8
  written : ℕ
  observations : ι → ObservationState
  /-- The observations which took a slot, those over the limit and those which created a file, newest first:
  no party reads them. -/
  admitted : List ι
  overLimit : List ι
  creators : List ι

/-- A sink on a directory with the files it had before. -/
def SinkState.opened {ι : Type*} (files : String → Option ℕ) : SinkState ι where
  directory name := (files name).map .foreign
  content _ := []
  written := 0
  observations _ := {}
  admitted := []
  overLimit := []
  creators := []

/-- One step of one of the parties of an observation. -/
inductive SinkStep
  /-- `write` counts the observation. -/
  | count
  | uncount
  | poll
  /-- The caller's future is dropped. -/
  | drop
  | close
  | receive
  | expire
  /-- The runtime drops the queued worker. -/
  | discard
  /-- The worker's next step succeeds, unless it cannot. -/
  | work
  /-- The worker's next step fails, a write after some of its bytes. -/
  | workFails (torn : List UInt8)
deriving DecidableEq

namespace SinkState

variable {ι : Type*} [DecidableEq ι] (campaign : String) (observe : ι → Observation) (s : SinkState ι) (c : ι)

/-- Replace the state of an observation. -/
def update (o : ObservationState) : SinkState ι :=
  { s with observations := Function.update s.observations c o }

/-- Replace the worker of an observation. -/
def setWorker (worker : Worker) : SinkState ι := s.update c { s.observations c with worker }

/-- The effect of a step of `prepare_record`, unless it cannot take place. -/
def perform : WorkerStep → Option (SinkState ι)
  | .checkpoint => if (s.observations c).isActiveBefore then some s else none
  | .createNew =>
    if s.directory (temporaryName campaign (observe c)) = none then
      some { s with
        directory := Function.update s.directory (temporaryName campaign (observe c)) (some (.of c))
        content := Function.update s.content c []
        creators := c :: s.creators }
    else none
  | .writeAll => some { s with content := Function.update s.content c ((observe c).record.getD []) }
  | .hardLink =>
    match s.directory (temporaryName campaign (observe c)), s.directory (finalName campaign (observe c)) with
    | some file, none =>
      some { s with directory := Function.update s.directory (finalName campaign (observe c)) (some file) }
    | _, _ => none
  | .inspectTemporary =>
    match s.directory (temporaryName campaign (observe c)) with
    | some file => if file = .of c then some s else none
    | none => some s
  | .unlinkTemporary =>
    some { s with directory := Function.update s.directory (temporaryName campaign (observe c)) none }
  | .inspect | .syncAll | .openDirectory | .syncDirectory => some s

/-- The names a guard removes when it is dropped. -/
def guardNames (published : Bool) : List String :=
  (if published then [finalName campaign (observe c)] else []) ++ [temporaryName campaign (observe c)]

/-- A step of `prepare_record` fails: the guard, once there is one, is dropped first. -/
def failPrepare (step : WorkerStep) (published : Option Bool) : SinkState ι :=
  match published with
  | none => s.setWorker c (.sending (.error step.failure))
  | some published => s.setWorker c (.dropping (guardNames campaign observe c published) false (some step.failure))

/-- The steps that remain after one: nothing is unlinked when there is no pending name. -/
def remaining (step : WorkerStep) (rest : List WorkerStep) : List WorkerStep :=
  if step = .inspectTemporary ∧ s.directory (temporaryName campaign (observe c)) = none then rest.tail else rest

/-- The guard after a step. -/
def guardAfter (step : WorkerStep) (published : Option Bool) : Option Bool :=
  match step with
  | .inspect => some false
  | .hardLink => published.map fun _ => true
  | _ => published

/-- The next step of a worker when it succeeds. -/
def work : Option (SinkState ι) :=
  let o := s.observations c
  match o.worker with
  | .unspawned | .finished => none
  | .queued =>
    some <| s.setWorker c <| match (observe c).record with
      | none => .sending (.error ⟨"QUALIFICATION_SERIALIZE_FAILED"⟩)
      | some bytes =>
        if bytes.length > MAX_RECORD_BYTES then .sending (.error ⟨"QUALIFICATION_RECORD_TOO_LARGE"⟩)
        else .preparing prepareRecord none
  | .preparing [] _ => some (s.setWorker c (.sending (.ok ())))
  | .preparing (step :: rest) published =>
    match s.perform campaign observe c step with
    | some done =>
      some (done.setWorker c
        (.preparing (s.remaining campaign observe c step rest) (guardAfter step published)))
    | none => some (s.failPrepare campaign observe c step published)
  | .dropping [] _ (some failure) => some (s.setWorker c (.sending (.error failure)))
  | .dropping [] _ none => some (s.setWorker c .finished)
  | .dropping (name :: names) false failure =>
    some (s.setWorker c (if s.directory name = some (.of c) then .dropping (name :: names) true failure
      else .dropping names false failure))
  | .dropping (name :: names) true failure =>
    some ({ s with directory := Function.update s.directory name none }.setWorker c
      (.dropping names false failure))
  | .sending result =>
    let delivered := o.caller = .awaiting
    let next := { o with
      worker := match result with
        | .ok _ => .waiting
        | .error _ => .finished
      message := if delivered then some result else o.message }
    match result with
    | .ok _ => some (s.update c (if delivered then next else next.cancel))
    | .error _ => some (s.update c next)
  | .waiting =>
    match o.receipt with
    | .active => none
    | .accepted => some (s.setWorker c .finished)
    | .cancelled => some (s.setWorker c (.dropping (guardNames campaign observe c true) false none))

/-- The next step of a worker when it fails; checkpoints fail only by themselves, and cleaning up does not. -/
def workFails (torn : List UInt8) : Option (SinkState ι) :=
  match (s.observations c).worker with
  | .preparing (.checkpoint :: _) _ => none
  | .preparing (.writeAll :: _) published =>
    some ({ s with content := Function.update s.content c torn }.failPrepare campaign observe c .writeAll published)
  | .preparing (step :: _) published => some (s.failPrepare campaign observe c step published)
  | _ => none

/-- The caller's `prepared.await` completes. -/
def receive : Option (SinkState ι) :=
  let o := s.observations c
  match o.caller, o.message, o.worker with
  | .awaiting, some (.ok _), _ => some (s.update c o.accept)
  | .awaiting, some (.error failure), _ => some (s.update c { o.cancel with caller := .returned (.error failure) })
  | .awaiting, none, .finished =>
    some (s.update c { o.cancel with caller := .returned (.error ⟨"QUALIFICATION_WRITE_FAILED"⟩) })
  | _, _, _ => none

/-- One step of one of the parties of an observation. -/
def step : SinkStep → Option (SinkState ι)
  | .count =>
    let o := s.observations c
    if o.caller ≠ .idle then none
    else if s.written ≥ MAX_OBSERVATIONS then
      some { s.update c { o with caller := .overCounted } with
        written := s.written + 1, overLimit := c :: s.overLimit }
    else
      some { s.update c { o with caller := .unpolled } with written := s.written + 1, admitted := c :: s.admitted }
  | .uncount =>
    let o := s.observations c
    if o.caller ≠ .overCounted then none
    else
      some { s.update c { o with caller := .returned (.error ⟨"QUALIFICATION_RECORD_LIMIT"⟩) } with
        written := s.written - 1, overLimit := s.overLimit.erase c }
  | .poll =>
    let o := s.observations c
    if o.caller ≠ .unpolled then none else some (s.update c { o with caller := .awaiting, worker := .queued })
  | .drop =>
    let o := s.observations c
    match o.caller with
    | .unpolled => some (s.update c { o with caller := .dropped })
    | .awaiting => some (s.update c { o with caller := .closing })
    | _ => none
  | .close =>
    let o := s.observations c
    if o.caller ≠ .closing then none else some (s.update c { o.cancel with caller := .dropped })
  | .receive => s.receive c
  | .expire => some (s.update c { s.observations c with expired := true })
  | .discard => if (s.observations c).worker ≠ .queued then none else some (s.setWorker c .finished)
  | .work => s.work campaign observe c
  | .workFails torn => s.workFails campaign observe c torn

end SinkState

end Voicetext.Gateway.Server
