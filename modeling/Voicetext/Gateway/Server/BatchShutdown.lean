import Mathlib.Data.List.Basic
import Voicetext.Common.FifoSemaphore
import Voicetext.Gateway.Contracts.Batch

/-!
# Batch slots, task registration and shutdown

Post requests and the startup backlog take slots, register a task and run it, while shutdown stops the
admission, asks for all global slots, takes the registered tasks and drains them until a deadline. A step is
one access to a semaphore, a flag or the locked task list by one of them, so every interleaving of any number
of them is a sequence of steps.
-/

namespace Voicetext.Gateway.Server

open Voicetext.Common Voicetext.Gateway.Contracts

def MAX_CONNECTIONS : ℕ := 10000

/-- `GatewayLimits::live_connections`, which is also the capacity of the batch slots. -/
def LiveConnections : Type := { connections : ℕ // 0 < connections ∧ connections ≤ MAX_CONNECTIONS }

/-- The semaphores of the batch slots. -/
inductive Slot
  | global
  | batch
  | provider (identity : BatchIdentity)
deriving DecidableEq

/-- What a registered task runs. -/
inductive TaskKind
  | execution (identity : BatchIdentity)
  | drainBacklog
deriving DecidableEq

/-- Where a post request or the startup backlog is and, once it is spawned, the task it became. -/
inductive Phase
  /-- `try_acquire_global_batch_slot`: before its first look at the flag, before the semaphore and before its
  second look. -/
  | arriving
  | tryingGlobal
  | recheckingGlobal
  | tryingBatch
  /-- Reading the form up to `try_acquire_provider_batch_slot`. -/
  | tryingProvider
  | admitting (identity : BatchIdentity)
  /-- In `spawn_batch_task` until the task is spawned. -/
  | registering (kind : TaskKind)
  /-- A request that is over, with the slots it still drops. -/
  | left (dropping : List Slot)
  /-- In `execute_fenced`, with or without a provider call in flight. -/
  | executing (fromBacklog : Bool) (identity : BatchIdentity) (calling : Bool)
  /-- `drain_backlog` between two rows, with the slots it still drops. -/
  | draining (dropping : List Slot)
  /-- `acquire_recovery_batch_slots` before it asks for a slot and while it awaits it. -/
  | acquiring (slot : Slot) (identity : BatchIdentity)
  | waiting (slot : Slot) (identity : BatchIdentity)
  /-- `acquire_recovery_batch_slots` before its last look at the flag. -/
  | recheckingAll (identity : BatchIdentity)
  /-- A task that is over, with the slots it still drops. -/
  | ended (dropping : List Slot)
deriving DecidableEq

/-- The three slots of an execution, in the order in which they are dropped with its permits. -/
def permits (identity : BatchIdentity) : List Slot := [.global, .batch, .provider identity]

namespace Phase

/-- The slots someone has or awaits, in the order in which it would drop them. -/
def slots : Phase → List Slot
  | arriving | tryingGlobal | registering .drainBacklog => []
  | recheckingGlobal | tryingBatch => [.global]
  | tryingProvider => [.batch, .global]
  | admitting identity | recheckingAll identity => [.provider identity, .batch, .global]
  | registering (.execution identity) | executing _ identity _ => permits identity
  | acquiring .global _ => []
  | waiting .global _ | acquiring .batch _ => [.global]
  | waiting .batch _ | acquiring (.provider _) _ => [.batch, .global]
  | waiting (.provider provider) _ => [.provider provider, .batch, .global]
  | left dropping | draining dropping | ended dropping => dropping

/-- `JoinHandle::is_finished`. -/
def isFinished (phase : Phase) : Bool := phase = ended []

/-- A task that was spawned and has not finished. -/
def isRunning : Phase → Bool
  | executing _ _ _ | draining _ | acquiring _ _ | waiting _ _ | recheckingAll _ | ended (_ :: _) => true
  | _ => false

/-- Whether a provider call is in flight. -/
def isCalling : Phase → Bool
  | executing _ _ calling => calling
  | _ => false

/-- What comes after a slot of the backlog was granted. -/
def granted (identity : BatchIdentity) : Slot → Phase
  | .global => acquiring .batch identity
  | .batch => acquiring (.provider identity) identity
  | .provider _ => recheckingAll identity

end Phase

/-- The beginning of a task. -/
def TaskKind.start : TaskKind → Phase
  | execution identity => .executing false identity false
  | drainBacklog => .draining []

/-- Who is inside `spawn_batch_task` with the lock of the task list. -/
inductive Registration (ι : Type*)
  /-- Before it looks whether the registration is closed. -/
  | checking (i : ι)
  /-- The task is spawned and not pushed yet: `retain` keeps unfinished tasks. -/
  | retaining (i : ι) (kept rest : List ι)
deriving DecidableEq

/-- `shutdown_batch_tasks`, with the tasks it has taken and whether it has all global slots. -/
inductive Shutdown (ι : Type*)
  | notCalled
  /-- The admission is stopped. -/
  | begun
  /-- Awaiting all global slots. -/
  | acquiring
  | closing (permit : Bool)
  | taking (permit : Bool)
  /-- `drain_tasks_until`: awaiting the first task, keeping the unfinished ones, aborting and joining them. -/
  | draining (permit : Bool) (tasks : List ι)
  | retaining (permit : Bool) (kept rest : List ι)
  | aborting (permit : Bool) (tasks rest : List ι)
  | joining (permit : Bool) (aborted : ℕ) (tasks : List ι)
  | returned (permit : Bool) (aborted : ℕ)
deriving DecidableEq

/-- The batch part of `GatewayState`, everyone who uses it and the shutdown. -/
structure BatchState (ι : Type*) where
  acceptingWork : Bool
  slots : Slot → FifoSemaphore (Option ι)
  batchTasks : List ι
  /-- Who holds the lock of the task list. -/
  lock : Option (Registration ι)
  registrationClosed : Bool
  phases : ι → Phase
  /-- The tasks which are asked to abort. -/
  aborted : List ι
  shutdown : Shutdown ι
  /-- Whether the deadline has passed. -/
  expired : Bool

/-- A gateway that begins to serve: requests arrive, and the startup backlog is about to be registered. -/
def BatchState.new {ι : Type*} (limits : LiveConnections) (isBacklog : ι → Bool) : BatchState ι where
  acceptingWork := true
  slots
    | .global | .batch => .new limits.val
    | .provider _ => .new (max ((limits.val + 1) / 2) 1)
  batchTasks := []
  lock := none
  registrationClosed := false
  phases i := if isBacklog i then .registering .drainBacklog else .arriving
  aborted := []
  shutdown := .notCalled
  expired := false

/-- A step of a request or a task. -/
inductive PartyStep
  /-- Go on; a form or a backlog row says for which identity. -/
  | advance (identity : BatchIdentity)
  /-- A request ends, or an execution or the backlog is over. -/
  | leave
  /-- A provider call begins and ends. -/
  | call
  | reply
  /-- The runtime drops an aborted task. -/
  | stop
deriving DecidableEq

inductive ShutdownStep (ι : Type*)
  | party (i : ι) (step : PartyStep)
  /-- `spawn_batch_task` goes on after its task was spawned. -/
  | retain
  | beginShutdown
  /-- `shutdown_batch_tasks` goes on. -/
  | shutdown
  /-- What it awaits times out. -/
  | timeOut
  | expire
deriving DecidableEq

/-- `Vec::swap_remove` of the first element. -/
def swapRemoveFirst {ι : Type*} : List ι → List ι
  | [] => []
  | _ :: tasks => tasks.getLast?.toList ++ tasks.dropLast

namespace BatchState

variable {ι : Type*} [DecidableEq ι] (capacity : ℕ) (s : BatchState ι) (i : ι)

def setPhase (phase : Phase) : BatchState ι := { s with phases := Function.update s.phases i phase }

def setSlot (slot : Slot) (semaphore : FifoSemaphore (Option ι)) : BatchState ι :=
  { s with slots := Function.update s.slots slot semaphore }

/-- Take a slot at once, or leave. -/
def trySlot (slot : Slot) (next : Phase) : BatchState ι :=
  match (s.slots slot).tryAcquire (some i) 1 with
  | some semaphore => (s.setSlot slot semaphore).setPhase i next
  | none => s.setPhase i (.left (s.phases i).slots)

/-- Drop a slot. -/
def dropSlot (slot : Slot) (next : Phase) : BatchState ι :=
  (s.setSlot slot ((s.slots slot).release (some i))).setPhase i next

/-- `spawn_batch_task` up to the spawned task. -/
def register (kind : TaskKind) : Option (BatchState ι) :=
  match s.lock with
  | none => some { s with lock := some (.checking i) }
  | some (.checking j) =>
    if j ≠ i then none
    else if s.registrationClosed then some ({ s with lock := none }.setPhase i (.left (s.phases i).slots))
    else some ({ s with lock := some (.retaining i [] s.batchTasks) }.setPhase i kind.start)
  | some (.retaining _ _ _) => none

/-- A request or a task goes on. -/
def advance (identity : BatchIdentity) : Option (BatchState ι) :=
  match s.phases i with
  | .arriving => some (s.setPhase i (if s.acceptingWork then .tryingGlobal else .left []))
  | .tryingGlobal => some (s.trySlot i .global .recheckingGlobal)
  | .recheckingGlobal => some (s.setPhase i (if s.acceptingWork then .tryingBatch else .left [.global]))
  | .tryingBatch => some (s.trySlot i .batch .tryingProvider)
  | .tryingProvider => some (s.trySlot i (.provider identity) (.admitting identity))
  | .admitting identity => some (s.setPhase i (.registering (.execution identity)))
  | .registering kind => s.register i kind
  | .draining [] => some (s.setPhase i (if s.acceptingWork then .acquiring .global identity else .draining []))
  | .acquiring slot identity =>
    some ((s.setSlot slot ((s.slots slot).acquire (some i) 1)).setPhase i (.waiting slot identity))
  | .waiting slot identity =>
    if (some i, 1) ∈ (s.slots slot).held then some (s.setPhase i (.granted identity slot)) else none
  | .recheckingAll identity =>
    some (s.setPhase i (if s.acceptingWork then .executing true identity false
      else .draining (Phase.recheckingAll identity).slots))
  | .left (slot :: slots) => some (s.dropSlot i slot (.left slots))
  | .draining (slot :: slots) => some (s.dropSlot i slot (.draining slots))
  | .ended (slot :: slots) => some (s.dropSlot i slot (.ended slots))
  | .left [] | .ended [] | .executing _ _ _ => none

/-- A request ends, unless it holds the lock; an execution is over, or the backlog. -/
def leave : Option (BatchState ι) :=
  match s.phases i with
  | .arriving | .tryingGlobal | .recheckingGlobal | .tryingBatch | .tryingProvider | .admitting _ =>
    some (s.setPhase i (.left (s.phases i).slots))
  | .executing false identity false => some (s.setPhase i (.ended (permits identity)))
  | .executing true identity false => some (s.setPhase i (.draining (permits identity)))
  | .draining [] => some (s.setPhase i (.ended []))
  | _ => none

/-- A step of a request or a task. -/
def partyStep : PartyStep → Option (BatchState ι)
  | .advance identity => s.advance i identity
  | .leave => s.leave i
  | .call =>
    match s.phases i with
    | .executing fromBacklog identity false => some (s.setPhase i (.executing fromBacklog identity true))
    | _ => none
  | .reply =>
    match s.phases i with
    | .executing fromBacklog identity true => some (s.setPhase i (.executing fromBacklog identity false))
    | _ => none
  | .stop =>
    if i ∈ s.aborted ∧ (s.phases i).isRunning then some (s.setPhase i (.ended (s.phases i).slots)) else none

/-- `spawn_batch_task` after its task was spawned. -/
def retain : Option (BatchState ι) :=
  match s.lock with
  | some (.retaining i kept []) => some { s with batchTasks := kept ++ [i], lock := none }
  | some (.retaining i kept (task :: rest)) =>
    some { s with
      lock := some (.retaining i (if (s.phases task).isFinished then kept else kept ++ [task]) rest) }
  | _ => none

/-- `shutdown_batch_tasks`. -/
def shutdownStep : Option (BatchState ι) :=
  match s.shutdown with
  | .notCalled => some { s with acceptingWork := false, shutdown := .begun }
  | .begun =>
    some { s.setSlot .global ((s.slots .global).acquire none capacity) with shutdown := .acquiring }
  | .acquiring =>
    if (none, capacity) ∈ (s.slots .global).held then some { s with shutdown := .closing true } else none
  | .closing permit => some { s with registrationClosed := true, shutdown := .taking permit }
  | .taking permit =>
    if s.lock = none then some { s with batchTasks := [], shutdown := .draining permit s.batchTasks } else none
  | .draining permit [] => some { s with shutdown := .retaining permit [] [] }
  | .draining permit (task :: tasks) =>
    if (s.phases task).isFinished then
      some { s with shutdown := .draining permit (swapRemoveFirst (task :: tasks)) }
    else none
  | .retaining permit kept (task :: rest) =>
    some { s with
      shutdown := .retaining permit (if (s.phases task).isFinished then kept else kept ++ [task]) rest }
  | .retaining permit kept [] => some { s with shutdown := .aborting permit kept kept }
  | .aborting permit tasks (task :: rest) =>
    some { s with aborted := task :: s.aborted, shutdown := .aborting permit tasks rest }
  | .aborting permit tasks [] => some { s with shutdown := .joining permit tasks.length tasks }
  | .joining permit aborted (task :: tasks) =>
    if (s.phases task).isFinished then some { s with shutdown := .joining permit aborted tasks } else none
  | .joining true aborted [] =>
    some { s.setSlot .global ((s.slots .global).release none) with shutdown := .returned true aborted }
  | .joining false aborted [] => some { s with shutdown := .returned false aborted }
  | .returned _ _ => none

/-- The deadline passed before all slots were granted or before the first task finished. -/
def timeOut : Option (BatchState ι) :=
  if s.expired then
    match s.shutdown with
    | .acquiring =>
      some { s.setSlot .global ((s.slots .global).release none) with shutdown := .closing false }
    | .draining permit tasks => some { s with shutdown := .retaining permit [] tasks }
    | _ => none
  else none

/-- A step of anyone. -/
def step : ShutdownStep ι → Option (BatchState ι)
  | .party i step => s.partyStep i step
  | .retain => s.retain
  | .beginShutdown => some { s with acceptingWork := false }
  | .shutdown => s.shutdownStep capacity
  | .timeOut => s.timeOut
  | .expire => some { s with expired := true }

end BatchState

end Voicetext.Gateway.Server
