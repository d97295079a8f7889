import Voicetext.Common.PartialSteps
import Voicetext.Gateway.Server.BatchShutdown

/-!
# Graceful shutdown neither leaves nor strangles work

Every step of a request or a task is one of a few moves of its phase, of the global slots and of the lock.
From these follow what is known of the global slots, of the tasks that still run and, as long as nobody queues
for a global slot behind the shutdown, of the queue.
-/

namespace Voicetext.Gateway.Server

open Voicetext.Common Voicetext.Gateway.Contracts

variable {ι : Type*}

/-- Someone who holds a global slot for sure. -/
def Phase.holdsGlobal (phase : Phase) : Bool :=
  decide (.global ∈ phase.slots) && !(phase matches .left _ | .draining _ | .ended _ | .waiting .global _)

/-- The beginning of a task that was just spawned is awaiting nothing. -/
theorem TaskKind.start_ne_waiting (kind : TaskKind) (slot : Slot) (identity : BatchIdentity) :
    kind.start ≠ .waiting slot identity := by
  cases kind <;> exact nofun

namespace Shutdown

/-- The shutdown awaits or has all global slots. -/
def asks : Shutdown ι → Bool
  | acquiring => true
  | closing permit | taking permit | draining permit _ | retaining permit _ _ | aborting permit _ _
  | joining permit _ _ => permit
  | notCalled | begun | returned _ _ => false

/-- The shutdown has all global slots. -/
def holdsAll : Shutdown ι → Bool
  | closing permit | taking permit | draining permit _ | retaining permit _ _ | aborting permit _ _
  | joining permit _ _ => permit
  | notCalled | begun | acquiring | returned _ _ => false

/-- The registration is closed. -/
def hasClosed : Shutdown ι → Bool
  | taking _ | draining _ _ | retaining _ _ _ | aborting _ _ _ | joining _ _ _ | returned _ _ => true
  | notCalled | begun | acquiring | closing _ => false

/-- The shutdown has taken the list of tasks. -/
def hasTaken : Shutdown ι → Bool
  | draining _ _ | retaining _ _ _ | aborting _ _ _ | joining _ _ _ | returned _ _ => true
  | notCalled | begun | acquiring | closing _ | taking _ => false

/-- The tasks it still awaits. -/
def pending : Shutdown ι → List ι
  | draining _ tasks | aborting _ tasks _ | joining _ _ tasks => tasks
  | retaining _ kept rest => kept ++ rest
  | notCalled | begun | acquiring | closing _ | taking _ | returned _ _ => []

def isReturned : Shutdown ι → Bool
  | returned _ _ => true
  | _ => false

end Shutdown

section Moves

variable [DecidableEq ι]

/-- What a step of a request or a task does to its phase, to the global slots and to the lock. -/
inductive Moves (s : BatchState ι) (i : ι) : BatchState ι → Prop
  | keeps {phase : Phase} {slots : Slot → FifoSemaphore (Option ι)} (hslots : slots .global = s.slots .global)
      (hphase : ∀ kind, s.phases i ≠ .registering kind) (hrunning : phase.isRunning → (s.phases i).isRunning)
      (hkeeps : .global ∈ (s.phases i).slots → .global ∈ phase.slots)
      (hholds : phase.holdsGlobal → (s.phases i).holdsGlobal ∨ (s.slots .global).Granted (some i) 1)
      (hwaits : ∀ identity, phase ≠ .waiting .global identity) :
      Moves s i { s with slots, phases := Function.update s.phases i phase }
  | takes {phase : Phase} (hphase : ∀ kind, s.phases i ≠ .registering kind)
      (hrunning : phase.isRunning → (s.phases i).isRunning) (hfree : .global ∉ (s.phases i).slots)
      (htakes : .global ∈ phase.slots)
      (hholds : phase.holdsGlobal → ((s.slots .global).acquire (some i) 1).Granted (some i) 1)
      (hqueues : ((s.slots .global).acquire (some i) 1).waiting = (s.slots .global).waiting ∨
        ∃ identity, s.phases i = .acquiring .global identity) :
      Moves s i
        { s with
          slots := Function.update s.slots .global ((s.slots .global).acquire (some i) 1)
          phases := Function.update s.phases i phase }
  | drops {phase : Phase} (hphase : ∀ kind, s.phases i ≠ .registering kind)
      (hrunning : phase.isRunning → (s.phases i).isRunning) (hholds : phase.holdsGlobal = false)
      (hwaits : ∀ identity, phase ≠ .waiting .global identity) :
      Moves s i
        { s with
          slots := Function.update s.slots .global ((s.slots .global).release (some i))
          phases := Function.update s.phases i phase }
  | locks {kind : TaskKind} (hphase : s.phases i = .registering kind) (hlock : s.lock = none) :
      Moves s i { s with lock := some (.checking i) }
  | refused {kind : TaskKind} (hphase : s.phases i = .registering kind) (hlock : s.lock = some (.checking i)) :
      Moves s i
        { s with lock := none, phases := Function.update s.phases i (.left (Phase.registering kind).slots) }
  | spawned {kind : TaskKind} (hphase : s.phases i = .registering kind) (hlock : s.lock = some (.checking i))
      (hopen : s.registrationClosed = false) :
      Moves s i
        { s with
          lock := some (.retaining i [] s.batchTasks), phases := Function.update s.phases i kind.start }

variable {s s' : BatchState ι} {i : ι}

/-- A phase that goes on with the global slot it has. -/
theorem moves_setPhase {phase : Phase} (hphase : ∀ kind, s.phases i ≠ .registering kind)
    (hrunning : phase.isRunning → (s.phases i).isRunning)
    (hkeeps : .global ∈ (s.phases i).slots → .global ∈ phase.slots)
    (hholds : phase.holdsGlobal → (s.phases i).holdsGlobal) (hwaits : ∀ identity, phase ≠ .waiting .global identity) :
    Moves s i (s.setPhase i phase) :=
  .keeps rfl hphase hrunning hkeeps (fun h => .inl (hholds h)) hwaits

/-- Another slot than the global one changes. -/
theorem moves_setSlot {slot : Slot} {semaphore : FifoSemaphore (Option ι)} {phase : Phase} (hslot : slot ≠ .global)
    (hphase : ∀ kind, s.phases i ≠ .registering kind)
    (hrunning : phase.isRunning → (s.phases i).isRunning)
    (hkeeps : .global ∈ (s.phases i).slots → .global ∈ phase.slots)
    (hholds : phase.holdsGlobal → (s.phases i).holdsGlobal) (hwaits : ∀ identity, phase ≠ .waiting .global identity) :
    Moves s i ((s.setSlot slot semaphore).setPhase i phase) :=
  .keeps (Function.update_of_ne (Ne.symm hslot) _ _) hphase hrunning hkeeps (fun h => .inl (hholds h)) hwaits

/-- A slot is dropped by someone that is over or between two rows. -/
theorem moves_dropSlot {slot : Slot} {slots : List Slot} {phase : Phase}
    (hphase : ∀ kind, s.phases i ≠ .registering kind) (hrunning : phase.isRunning → (s.phases i).isRunning)
    (hbefore : (s.phases i).slots = slot :: slots) (hafter : phase.slots = slots)
    (hholds : phase.holdsGlobal = false) (hwaits : ∀ identity, phase ≠ .waiting .global identity) :
    Moves s i (s.dropSlot i slot phase) := by
  by_cases hslot : slot = .global
  · subst hslot
    exact .drops hphase hrunning hholds hwaits
  · refine moves_setSlot hslot hphase hrunning (fun hmem => ?_) (by simp [hholds]) hwaits
    rw [hbefore] at hmem
    rw [hafter]
    exact (List.mem_cons.mp hmem).resolve_left (Ne.symm hslot)

/-- Registering a task takes the lock, is refused or spawns the task. -/
theorem moves_register {kind : TaskKind} (hphase : s.phases i = .registering kind)
    (hstep : s.register i kind = some s') : Moves s i s' := by
  unfold BatchState.register at hstep
  split at hstep
  · rename_i hlock
    obtain rfl := Option.some.inj hstep
    exact .locks hphase hlock
  · rename_i j hlock
    by_cases hj : j = i
    · subst hj
      rw [if_neg (not_not.mpr rfl)] at hstep
      split at hstep
      · obtain rfl := Option.some.inj hstep
        have hrefused := Moves.refused hphase hlock
        rwa [← hphase] at hrefused
      · rename_i hopen
        obtain rfl := Option.some.inj hstep
        exact .spawned hphase hlock (eq_false_of_ne_true hopen)
    · rw [if_pos hj] at hstep
      cases hstep
  · cases hstep

theorem moves_trySlot_global (hphase : s.phases i = .tryingGlobal) :
    Moves s i (s.trySlot i .global .recheckingGlobal) := by
  unfold BatchState.trySlot
  split
  · rename_i semaphore htry
    obtain rfl := FifoSemaphore.acquire_of_tryAcquire htry
    exact .takes (by simp [hphase]) nofun (by simp [hphase, Phase.slots]) (by simp [Phase.slots])
      (fun _ => FifoSemaphore.granted_of_tryAcquire htry) (.inl (FifoSemaphore.waiting_of_tryAcquire htry))
  · exact moves_setPhase (by simp [hphase]) nofun (by simp [Phase.slots]) (by simp [Phase.holdsGlobal])
      (by simp)

/-- Trying for another slot. -/
theorem moves_trySlot {slot : Slot} {phase : Phase} (hslot : slot ≠ .global)
    (hphase : ∀ kind, s.phases i ≠ .registering kind) (hrunning : phase.isRunning = false)
    (hkeeps : .global ∈ (s.phases i).slots → .global ∈ phase.slots)
    (hholds : phase.holdsGlobal → (s.phases i).holdsGlobal) (hwaits : ∀ identity, phase ≠ .waiting .global identity) :
    Moves s i (s.trySlot i slot phase) := by
  unfold BatchState.trySlot
  split
  · exact moves_setSlot hslot hphase (by simp [hrunning]) hkeeps hholds hwaits
  · exact moves_setPhase hphase nofun (by simp [Phase.slots]) (by simp [Phase.holdsGlobal]) (by simp)

theorem moves_advance {identity : BatchIdentity} (hstep : s.advance i identity = some s') : Moves s i s' := by
  unfold BatchState.advance at hstep
  split at hstep
  · rename_i hphase
    obtain rfl := Option.some.inj hstep
    split <;> exact moves_setPhase (by simp [hphase]) nofun (by simp [hphase, Phase.slots])
      (by simp [Phase.holdsGlobal, Phase.slots]) (by simp)
  · rename_i hphase
    obtain rfl := Option.some.inj hstep
    exact moves_trySlot_global hphase
  · rename_i hphase
    obtain rfl := Option.some.inj hstep
    split <;> exact moves_setPhase (by simp [hphase]) nofun (by simp [Phase.slots])
      (by simp [hphase, Phase.holdsGlobal, Phase.slots]) (by simp)
  · rename_i hphase
    obtain rfl := Option.some.inj hstep
    exact moves_trySlot nofun (by simp [hphase]) rfl (by simp [Phase.slots])
      (by simp [hphase, Phase.holdsGlobal, Phase.slots]) (by simp)
  · rename_i hphase
    obtain rfl := Option.some.inj hstep
    exact moves_trySlot nofun (by simp [hphase]) rfl (by simp [Phase.slots])
      (by simp [hphase, Phase.holdsGlobal, Phase.slots]) (by simp)
  · rename_i hphase
    obtain rfl := Option.some.inj hstep
    exact moves_setPhase (by simp [hphase]) nofun (by simp [Phase.slots, permits])
      (by simp [hphase, Phase.holdsGlobal, Phase.slots]) (by simp)
  · rename_i hphase
    exact moves_register hphase hstep
  · rename_i hphase
    obtain rfl := Option.some.inj hstep
    split <;> exact moves_setPhase (by simp [hphase]) (by simp [hphase, Phase.isRunning])
      (by simp [hphase, Phase.slots]) (by simp [Phase.holdsGlobal, Phase.slots]) (by simp)
  · rename_i slot identity hphase
    obtain rfl := Option.some.inj hstep
    match slot with
    | .global =>
      exact .takes (by simp [hphase]) (by simp [hphase, Phase.isRunning]) (by simp [hphase, Phase.slots])
        (by simp [Phase.slots]) (by simp [Phase.holdsGlobal]) (.inr ⟨identity, hphase⟩)
    | .batch | .provider _ =>
      exact moves_setSlot nofun (by simp [hphase]) (by simp [hphase, Phase.isRunning]) (by simp [Phase.slots])
        (by simp [hphase, Phase.holdsGlobal, Phase.slots]) (by simp)
  · rename_i slot identity hphase
    split at hstep
    · rename_i hgranted
      obtain rfl := Option.some.inj hstep
      match slot with
      | .global =>
        exact .keeps rfl (by simp [hphase]) (by simp [hphase, Phase.isRunning])
          (by simp [Phase.granted, Phase.slots]) (fun _ => .inr hgranted) (by simp [Phase.granted])
      | .batch | .provider _ =>
        exact moves_setPhase (by simp [hphase]) (by simp [hphase, Phase.isRunning])
          (by simp [Phase.granted, Phase.slots]) (by simp [hphase, Phase.holdsGlobal, Phase.slots])
          (by simp [Phase.granted])
    · cases hstep
  · rename_i identity hphase
    obtain rfl := Option.some.inj hstep
    split <;> exact moves_setPhase (by simp [hphase]) (by simp [hphase, Phase.isRunning])
      (by simp [Phase.slots, permits]) (by simp [hphase, Phase.holdsGlobal, Phase.slots]) (by simp)
  · rename_i hphase
    obtain rfl := Option.some.inj hstep
    exact moves_dropSlot (by simp [hphase]) nofun (by rw [hphase]; rfl) rfl (by simp [Phase.holdsGlobal])
      (by simp)
  · rename_i hphase
    obtain rfl := Option.some.inj hstep
    exact moves_dropSlot (by simp [hphase]) (by simp [hphase, Phase.isRunning]) (by rw [hphase]; rfl) rfl
      (by simp [Phase.holdsGlobal]) (by simp)
  · rename_i hphase
    obtain rfl := Option.some.inj hstep
    exact moves_dropSlot (by simp [hphase]) (by simp [hphase, Phase.isRunning]) (by rw [hphase]; rfl) rfl
      (by simp [Phase.holdsGlobal]) (by simp)
  · cases hstep
  · cases hstep
  · cases hstep

theorem moves_leave (hstep : s.leave i = some s') : Moves s i s' := by
  have hleft (hphase : ∀ kind, s.phases i ≠ .registering kind) :
      Moves s i (s.setPhase i (.left (s.phases i).slots)) :=
    moves_setPhase hphase nofun (by simp [Phase.slots]) (by simp [Phase.holdsGlobal]) (by simp)
  match hphase : s.phases i with
  | .arriving | .tryingGlobal | .recheckingGlobal | .tryingBatch | .tryingProvider | .admitting _ =>
    simp only [BatchState.leave, hphase] at hstep
    rw [← hphase] at hstep
    exact Option.some.inj hstep ▸ hleft (by simp [hphase])
  | .executing false _ false | .executing true _ false =>
    simp only [BatchState.leave, hphase] at hstep
    exact Option.some.inj hstep ▸ moves_setPhase (by simp [hphase]) (by simp [hphase, Phase.isRunning])
      (by simp [Phase.slots, permits]) (by simp [Phase.holdsGlobal]) (by simp)
  | .draining [] =>
    simp only [BatchState.leave, hphase] at hstep
    exact Option.some.inj hstep ▸ moves_setPhase (by simp [hphase]) nofun (by simp [hphase, Phase.slots])
      (by simp [Phase.holdsGlobal]) (by simp)
  | .registering _ | .left _ | .executing _ _ true | .draining (_ :: _) | .acquiring _ _ | .waiting _ _
  | .recheckingAll _ | .ended _ => simp [BatchState.leave, hphase] at hstep

/-- Every step of a request or a task is one of its moves. -/
theorem moves_partyStep {step : PartyStep} (hstep : s.partyStep i step = some s') : Moves s i s' := by
  cases step with
  | advance identity => exact moves_advance hstep
  | leave => exact moves_leave hstep
  | call | reply =>
    simp only [BatchState.partyStep] at hstep
    split at hstep
    · rename_i hphase
      obtain rfl := Option.some.inj hstep
      exact moves_setPhase (by simp [hphase]) (by simp [hphase, Phase.isRunning]) (by simp [Phase.slots, permits])
        (by simp [hphase, Phase.holdsGlobal, Phase.slots, permits]) (by simp)
    · cases hstep
  | stop =>
    simp only [BatchState.partyStep] at hstep
    split at hstep
    · rename_i hstops
      obtain rfl := Option.some.inj hstep
      refine moves_setPhase (fun kind hphase => ?_) (fun _ => hstops.2) (by simp [Phase.slots])
        (by simp [Phase.holdsGlobal]) (by simp)
      simp [hphase, Phase.isRunning] at hstops
    · cases hstep

end Moves

section ShutdownMoves

variable [DecidableEq ι]

/-- What a step of the shutdown does: it awaits fewer tasks only when they have finished. -/
inductive ShutdownMoves (capacity : ℕ) (s : BatchState ι) : BatchState ι → Prop
  | begins (hshutdown : s.shutdown = .notCalled) :
      ShutdownMoves capacity s { s with acceptingWork := false, shutdown := .begun }
  | asks (hshutdown : s.shutdown = .begun) :
      ShutdownMoves capacity s
        { s with
          slots := Function.update s.slots .global ((s.slots .global).acquire none capacity)
          shutdown := .acquiring }
  | obtains (hshutdown : s.shutdown = .acquiring) (hgranted : (s.slots .global).Granted none capacity) :
      ShutdownMoves capacity s { s with shutdown := .closing true }
  | closes {permit : Bool} (hshutdown : s.shutdown = .closing permit) :
      ShutdownMoves capacity s { s with registrationClosed := true, shutdown := .taking permit }
  | takes {permit : Bool} (hshutdown : s.shutdown = .taking permit) (hlock : s.lock = none) :
      ShutdownMoves capacity s { s with batchTasks := [], shutdown := .draining permit s.batchTasks }
  | drains {shutdown : Shutdown ι} {aborted : List ι} (htaken : s.shutdown.hasTaken = true)
      (hnext : shutdown.hasTaken = true) (hasks : shutdown.asks = s.shutdown.asks)
      (hholds : shutdown.holdsAll = s.shutdown.holdsAll)
      (hpending : ∀ task ∈ s.shutdown.pending, task ∈ shutdown.pending ∨ (s.phases task).isFinished) :
      ShutdownMoves capacity s { s with aborted, shutdown }
  | givesBack {shutdown : Shutdown ι} (hholds : shutdown.holdsAll = false)
      (hclosed : shutdown.hasClosed = s.shutdown.hasClosed) (htaken : shutdown.hasTaken = s.shutdown.hasTaken)
      (hpending : s.shutdown.pending = []) :
      ShutdownMoves capacity s
        { s with slots := Function.update s.slots .global ((s.slots .global).release none), shutdown }

omit [DecidableEq ι] in
/-- Only the first task is removed. -/
theorem mem_swapRemoveFirst (first : ι) {task : ι} {tasks : List ι} (h : task ∈ tasks) :
    task ∈ swapRemoveFirst (first :: tasks) := by
  have hne : tasks ≠ [] := List.ne_nil_of_mem h
  rw [← List.dropLast_concat_getLast hne] at h
  simp only [swapRemoveFirst, List.getLast?_eq_some_getLast hne, Option.toList_some, List.mem_append]
  exact (List.mem_append.mp h).symm

omit [DecidableEq ι] in
/-- Finished tasks are not kept. -/
theorem kept_of_unfinished {phases : ι → Phase} {first task : ι} {kept rest : List ι}
    (h : task ∈ kept ++ first :: rest) :
    task ∈ (if (phases first).isFinished then kept else kept ++ [first]) ++ rest ∨ (phases task).isFinished := by
  split
  · rename_i hfinished
    rcases List.mem_append.mp h with hkept | hrest
    · exact .inl (List.mem_append_left _ hkept)
    · obtain rfl | hrest := List.mem_cons.mp hrest
      · exact .inr hfinished
      · exact .inl (List.mem_append_right _ hrest)
  · exact .inl (by simpa using h)

variable {capacity : ℕ} {s s' : BatchState ι}

theorem shutdownMoves_shutdownStep (hstep : s.shutdownStep capacity = some s') : ShutdownMoves capacity s s' := by
  match hshutdown : s.shutdown with
  | .notCalled =>
    simp only [BatchState.shutdownStep, hshutdown] at hstep
    exact Option.some.inj hstep ▸ .begins hshutdown
  | .begun =>
    simp only [BatchState.shutdownStep, hshutdown] at hstep
    exact Option.some.inj hstep ▸ .asks hshutdown
  | .acquiring =>
    simp only [BatchState.shutdownStep, hshutdown] at hstep
    split at hstep
    · rename_i hgranted
      exact Option.some.inj hstep ▸ .obtains hshutdown hgranted
    · cases hstep
  | .closing permit =>
    simp only [BatchState.shutdownStep, hshutdown] at hstep
    exact Option.some.inj hstep ▸ .closes hshutdown
  | .taking permit =>
    simp only [BatchState.shutdownStep, hshutdown] at hstep
    split at hstep
    · rename_i hlock
      exact Option.some.inj hstep ▸ .takes hshutdown hlock
    · cases hstep
  | .draining permit [] =>
    simp only [BatchState.shutdownStep, hshutdown] at hstep
    exact Option.some.inj hstep ▸ .drains (by rw [hshutdown]; rfl) rfl (by rw [hshutdown]; rfl)
      (by rw [hshutdown]; rfl) (by simp [hshutdown, Shutdown.pending])
  | .draining permit (first :: tasks) =>
    simp only [BatchState.shutdownStep, hshutdown] at hstep
    split at hstep
    · rename_i hfinished
      refine Option.some.inj hstep ▸ .drains (by rw [hshutdown]; rfl) rfl (by rw [hshutdown]; rfl)
        (by rw [hshutdown]; rfl) fun task htask => ?_
      rw [hshutdown] at htask
      obtain rfl | htask := List.mem_cons.mp htask
      · exact .inr hfinished
      · exact .inl (mem_swapRemoveFirst first htask)
    · cases hstep
  | .retaining permit kept (first :: rest) =>
    simp only [BatchState.shutdownStep, hshutdown] at hstep
    refine Option.some.inj hstep ▸ .drains (by rw [hshutdown]; rfl) rfl (by rw [hshutdown]; rfl)
      (by rw [hshutdown]; rfl) fun task htask => ?_
    rw [hshutdown] at htask
    exact kept_of_unfinished htask
  | .retaining permit kept [] =>
    simp only [BatchState.shutdownStep, hshutdown] at hstep
    exact Option.some.inj hstep ▸ .drains (by rw [hshutdown]; rfl) rfl (by rw [hshutdown]; rfl)
      (by rw [hshutdown]; rfl) (by simp +contextual [hshutdown, Shutdown.pending])
  | .aborting permit tasks (first :: rest) =>
    simp only [BatchState.shutdownStep, hshutdown] at hstep
    exact Option.some.inj hstep ▸ .drains (by rw [hshutdown]; rfl) rfl (by rw [hshutdown]; rfl)
      (by rw [hshutdown]; rfl) (by simp +contextual [hshutdown, Shutdown.pending])
  | .aborting permit tasks [] =>
    simp only [BatchState.shutdownStep, hshutdown] at hstep
    exact Option.some.inj hstep ▸ .drains (by rw [hshutdown]; rfl) rfl (by rw [hshutdown]; rfl)
      (by rw [hshutdown]; rfl) (by simp +contextual [hshutdown, Shutdown.pending])
  | .joining permit aborted (first :: tasks) =>
    simp only [BatchState.shutdownStep, hshutdown] at hstep
    split at hstep
    · rename_i hfinished
      refine Option.some.inj hstep ▸ .drains (by rw [hshutdown]; rfl) rfl (by rw [hshutdown]; rfl)
        (by rw [hshutdown]; rfl) fun task htask => ?_
      rw [hshutdown] at htask
      obtain rfl | htask := List.mem_cons.mp htask
      · exact .inr hfinished
      · exact .inl htask
    · cases hstep
  | .joining true aborted [] =>
    simp only [BatchState.shutdownStep, hshutdown] at hstep
    exact Option.some.inj hstep ▸ .givesBack rfl (by rw [hshutdown]; rfl) (by rw [hshutdown]; rfl)
      (by rw [hshutdown]; rfl)
  | .joining false aborted [] =>
    simp only [BatchState.shutdownStep, hshutdown] at hstep
    exact Option.some.inj hstep ▸ .drains (by rw [hshutdown]; rfl) rfl (by rw [hshutdown]; rfl)
      (by rw [hshutdown]; rfl) (by simp [hshutdown, Shutdown.pending])
  | .returned _ _ => simp [BatchState.shutdownStep, hshutdown] at hstep

theorem shutdownMoves_timeOut (hstep : s.timeOut = some s') : ShutdownMoves capacity s s' := by
  unfold BatchState.timeOut at hstep
  split at hstep
  · split at hstep
    · rename_i hshutdown
      exact Option.some.inj hstep ▸ .givesBack rfl (by rw [hshutdown]; rfl) (by rw [hshutdown]; rfl)
        (by rw [hshutdown]; rfl)
    · rename_i hshutdown
      exact Option.some.inj hstep ▸ .drains (by rw [hshutdown]; rfl) rfl (by rw [hshutdown]; rfl)
        (by rw [hshutdown]; rfl) (by simp +contextual [hshutdown, Shutdown.pending])
    · cases hstep
  · cases hstep

end ShutdownMoves

section GlobalSlots

/-- What a phase means for the global slots. -/
structure PhaseKnown (semaphore : FifoSemaphore (Option ι)) (i : ι) (phase : Phase) : Prop where
  engaged : ∀ n, semaphore.Engaged (some i) n → n = 1 ∧ .global ∈ phase.slots
  holds : phase.holdsGlobal → semaphore.Granted (some i) 1
  waits : ∀ identity, phase = .waiting .global identity → semaphore.Engaged (some i) 1

/-- What is known of the global slots: everyone has or awaits at most one, and the shutdown all of them. -/
structure SlotsKnown (capacity : ℕ) (semaphore : FifoSemaphore (Option ι)) (phases : ι → Phase)
    (shutdown : Shutdown ι) : Prop where
  wellFormed : semaphore.WellFormed
  total_eq : semaphore.total = capacity
  phase : ∀ i, PhaseKnown semaphore i (phases i)
  asked : ∀ n, semaphore.Engaged none n → n = capacity ∧ shutdown.asks = true
  holdsAll : shutdown.holdsAll = true → semaphore.Granted none capacity

variable {capacity : ℕ} {semaphore : FifoSemaphore (Option ι)} {i : ι} {phase : Phase}

/-- Nobody else notices that permits are taken. -/
theorem PhaseKnown.acquire (h : PhaseKnown semaphore i phase) {a : Option ι} (hne : some i ≠ a) (n : ℕ) :
    PhaseKnown (semaphore.acquire a n) i phase where
  engaged m hengaged := h.engaged m
    ((FifoSemaphore.engaged_of_acquire hengaged).resolve_right fun heq => hne heq.1)
  holds hholds := (h.holds hholds).acquire
  waits identity hphase := (h.waits identity hphase).acquire

/-- Permits given back only serve those who wait. -/
theorem PhaseKnown.release [DecidableEq ι] (h : PhaseKnown semaphore i phase) {a : Option ι} (hne : some i ≠ a) :
    PhaseKnown (semaphore.release a) i phase where
  engaged m hengaged := h.engaged m (FifoSemaphore.engaged_of_release hengaged).2
  holds hholds := (h.holds hholds).release hne
  waits identity hphase := (h.waits identity hphase).release hne

/-- What is known of everyone when one phase changes. -/
theorem phaseKnown_update [DecidableEq ι] {phases : ι → Phase} (hphase : PhaseKnown semaphore i phase)
    (hothers : ∀ j, j ≠ i → PhaseKnown semaphore j (phases j)) (j : ι) :
    PhaseKnown semaphore j (Function.update phases i phase j) := by
  by_cases hj : j = i
  · subst hj
    rwa [Function.update_self]
  · rw [Function.update_of_ne hj]
    exact hothers j hj

variable [DecidableEq ι] {s s' : BatchState ι}

/-- What is known of the global slots of a state. -/
def BatchState.SlotsKnown (capacity : ℕ) (s : BatchState ι) : Prop :=
  Server.SlotsKnown capacity (s.slots .global) s.phases s.shutdown

theorem BatchState.SlotsKnown.moves (h : s.SlotsKnown capacity) (hmoves : Moves s i s') : s'.SlotsKnown capacity := by
  have hself := h.phase i
  cases hmoves with
  | keeps hslots _ _ hkeeps hholds hwaits =>
    simp only [BatchState.SlotsKnown, hslots]
    refine { h with phase := phaseKnown_update ?_ fun j _ => h.phase j }
    exact
      { engaged := fun n hengaged => (hself.engaged n hengaged).imp_right hkeeps
        holds := fun hphase => (hholds hphase).elim hself.holds id
        waits := fun identity hphase => absurd hphase (hwaits identity) }
  | takes _ _ hfree htakes hholds _ =>
    have hfresh (n : ℕ) : ¬ (s.slots .global).Engaged (some i) n := fun hengaged =>
      hfree (hself.engaged n hengaged).2
    simp only [BatchState.SlotsKnown, Function.update_self]
    refine
      { wellFormed := h.wellFormed.acquire hfresh Nat.one_pos
        total_eq := (FifoSemaphore.total_acquire _ _ _).trans h.total_eq
        phase := phaseKnown_update ?_ fun j hj => (h.phase j).acquire (by simpa using hj) 1
        asked := fun n hengaged =>
          h.asked n ((FifoSemaphore.engaged_of_acquire hengaged).resolve_right (by simp))
        holdsAll := fun hall => (h.holdsAll hall).acquire }
    exact
      { engaged := fun n hengaged =>
          ⟨((FifoSemaphore.engaged_of_acquire hengaged).resolve_left (hfresh n)).2, htakes⟩
        holds := hholds
        waits := fun _ _ => FifoSemaphore.granted_or_queued _ _ _ }
  | drops _ _ hholds hwaits =>
    simp only [BatchState.SlotsKnown, Function.update_self]
    refine
      { wellFormed := h.wellFormed.release
        total_eq := (FifoSemaphore.total_release h.wellFormed _).trans h.total_eq
        phase := phaseKnown_update ?_ fun j hj => (h.phase j).release (by simpa using hj)
        asked := fun n hengaged => h.asked n (FifoSemaphore.engaged_of_release hengaged).2
        holdsAll := fun hall => (h.holdsAll hall).release (by simp) }
    exact
      { engaged := fun n hengaged => absurd rfl (FifoSemaphore.engaged_of_release hengaged).1
        holds := fun hphase => by simp [hholds] at hphase
        waits := fun identity hphase => absurd hphase (hwaits identity) }
  | locks => exact h
  | refused hphase _ =>
    refine { h with phase := phaseKnown_update ?_ fun j _ => h.phase j }
    rw [hphase] at hself
    exact
      { engaged := hself.engaged
        holds := by simp [Phase.holdsGlobal]
        waits := nofun }
  | @spawned kind hphase _ _ =>
    refine { h with phase := phaseKnown_update ?_ fun j _ => h.phase j }
    rw [hphase] at hself
    match kind, hself with
    | .execution _, hself =>
      exact
        { engaged := hself.engaged
          holds := fun _ => hself.holds (by simp [Phase.holdsGlobal, Phase.slots, permits])
          waits := nofun }
    | .drainBacklog, hself =>
      exact
        { engaged := hself.engaged
          holds := by simp [TaskKind.start, Phase.holdsGlobal]
          waits := nofun }

theorem BatchState.SlotsKnown.shutdownMoves (h : s.SlotsKnown capacity) (hpos : 0 < capacity)
    (hmoves : ShutdownMoves capacity s s') : s'.SlotsKnown capacity := by
  -- the semaphore does not change, and the shutdown keeps what it has
  have hkeeps {shutdown : Shutdown ι} (hasks : shutdown.asks = s.shutdown.asks)
      (hholds : shutdown.holdsAll = s.shutdown.holdsAll) :
      Server.SlotsKnown capacity (s.slots .global) s.phases shutdown :=
    { h with
      asked := fun n hengaged => (h.asked n hengaged).imp_right (hasks.trans ·)
      holdsAll := fun hall => h.holdsAll (hholds.symm.trans hall) }
  cases hmoves with
  | begins hshutdown => exact hkeeps (by rw [hshutdown]; rfl) (by rw [hshutdown]; rfl)
  | asks hshutdown =>
    have hfresh (n : ℕ) : ¬ (s.slots .global).Engaged none n := fun hengaged => by
      have hasks := (h.asked n hengaged).2
      rw [hshutdown] at hasks
      cases hasks
    simp only [BatchState.SlotsKnown, Function.update_self]
    exact
      { wellFormed := h.wellFormed.acquire hfresh hpos
        total_eq := (FifoSemaphore.total_acquire _ _ _).trans h.total_eq
        phase := fun i => (h.phase i).acquire (by simp) capacity
        asked := fun n hengaged =>
          ⟨((FifoSemaphore.engaged_of_acquire hengaged).resolve_left (hfresh n)).2, rfl⟩
        holdsAll := nofun }
  | obtains _ hgranted =>
    exact { h with asked := fun n hengaged => ⟨(h.asked n hengaged).1, rfl⟩, holdsAll := fun _ => hgranted }
  | closes hshutdown => exact hkeeps (by rw [hshutdown]; rfl) (by rw [hshutdown]; rfl)
  | takes hshutdown _ => exact hkeeps (by rw [hshutdown]; rfl) (by rw [hshutdown]; rfl)
  | drains _ _ hasks hholds _ => exact hkeeps hasks hholds
  | givesBack hholds _ _ _ =>
    simp only [BatchState.SlotsKnown, Function.update_self]
    exact
      { wellFormed := h.wellFormed.release
        total_eq := (FifoSemaphore.total_release h.wellFormed _).trans h.total_eq
        phase := fun i => (h.phase i).release (by simp)
        asked := fun n hengaged => absurd rfl (FifoSemaphore.engaged_of_release hengaged).1
        holdsAll := fun hall => by simp [hholds] at hall }

omit [DecidableEq ι] in
/-- Nobody else holds a global slot while the shutdown has all of them. -/
theorem BatchState.SlotsKnown.not_granted (h : s.SlotsKnown capacity) (hall : s.shutdown.holdsAll = true) (i : ι) :
    ¬ (s.slots .global).Granted (some i) 1 := fun hgranted => by
  have hle := FifoSemaphore.add_le_total (h.holdsAll hall) hgranted nofun
  rw [h.total_eq] at hle
  omega

end GlobalSlots

section Tasks

/-- The task of somebody is being pushed. -/
def BatchState.IsPushing (s : BatchState ι) (i : ι) : Prop :=
  ∃ kept rest, s.lock = some (.retaining i kept rest)

/-- What is known of the tasks: those that run are in the list, or awaited by the shutdown, or about to be pushed
by who has the lock. -/
structure TasksTracked (s : BatchState ι) : Prop where
  tracked : ∀ i, (s.phases i).isRunning → i ∈ s.batchTasks ∨ i ∈ s.shutdown.pending ∨ s.IsPushing i
  checking : ∀ i, s.lock = some (.checking i) → ∃ kind, s.phases i = .registering kind
  retaining : ∀ i kept rest, s.lock = some (.retaining i kept rest) → s.shutdown.hasTaken = false ∧
    ∀ task ∈ s.batchTasks, (s.phases task).isRunning → task ∈ kept ++ rest
  closed : s.shutdown.hasClosed = true → s.registrationClosed = true
  taken : s.shutdown.hasTaken = true → s.batchTasks = []

/-- A finished task does not run. -/
theorem Phase.not_isRunning_of_isFinished {phase : Phase} (h : phase.isFinished = true) :
    phase.isRunning = false := by
  rw [of_decide_eq_true h]
  rfl

theorem Shutdown.hasClosed_of_hasTaken {shutdown : Shutdown ι} (h : shutdown.hasTaken = true) :
    shutdown.hasClosed = true := by
  cases shutdown <;> first | rfl | cases h

variable [DecidableEq ι] {capacity : ℕ} {s s' : BatchState ι} {i : ι}

/-- A phase that does not begin to run leaves every task tracked. -/
theorem TasksTracked.update (h : TasksTracked s) {phase : Phase} {slots : Slot → FifoSemaphore (Option ι)}
    (hphase : ∀ kind, s.phases i ≠ .registering kind) (hrunning : phase.isRunning → (s.phases i).isRunning) :
    TasksTracked { s with slots, phases := Function.update s.phases i phase } := by
  have hbefore (j : ι) (hj : (Function.update s.phases i phase j).isRunning) : (s.phases j).isRunning := by
    by_cases heq : j = i
    · subst heq
      rw [Function.update_self] at hj
      exact hrunning hj
    · rwa [Function.update_of_ne heq] at hj
  refine { h with tracked := fun j hj => h.tracked j (hbefore j hj), checking := fun j hlock => ?_, retaining := ?_ }
  · obtain ⟨kind, hkind⟩ := h.checking j hlock
    have hne : j ≠ i := fun heq => hphase kind (heq ▸ hkind)
    exact ⟨kind, (Function.update_of_ne hne _ _).trans hkind⟩
  · intro j kept rest hlock
    exact (h.retaining j kept rest hlock).imp_right fun hkept task htask hrun => hkept task htask (hbefore task hrun)

theorem TasksTracked.moves (h : TasksTracked s) (hmoves : Moves s i s') : TasksTracked s' := by
  cases hmoves with
  | keeps _ hphase hrunning _ _ _ => exact h.update hphase hrunning
  | takes hphase hrunning _ _ _ _ => exact h.update hphase hrunning
  | drops hphase hrunning _ _ => exact h.update hphase hrunning
  | @locks kind hphase hlock =>
    refine { h with tracked := fun j hj => ?_, checking := ?_, retaining := nofun }
    · refine (h.tracked j hj).imp_right fun hpending => hpending.imp_right fun hpushing => ?_
      obtain ⟨kept, rest, hpushing⟩ := hpushing
      cases hlock.symm.trans hpushing
    · rintro j ⟨⟩
      exact ⟨kind, hphase⟩
  | @refused kind hphase hlock =>
    refine { h with tracked := fun j hj => ?_, checking := nofun, retaining := nofun }
    by_cases heq : j = i
    · subst heq
      simp [Phase.isRunning] at hj
    · simp only [Function.update_of_ne heq] at hj
      refine (h.tracked j hj).imp_right fun hpending => hpending.imp_right fun ⟨kept, rest, hpushing⟩ => ?_
      cases hlock.symm.trans hpushing
  | @spawned kind hphase hlock hopen =>
    refine { h with tracked := fun j hj => ?_, checking := nofun, retaining := ?_ }
    · by_cases heq : j = i
      · exact .inr (.inr ⟨[], s.batchTasks, heq ▸ rfl⟩)
      · simp only [Function.update_of_ne heq] at hj
        refine (h.tracked j hj).imp_right fun hpending => hpending.imp_right fun ⟨kept, rest, hpushing⟩ => ?_
        cases hlock.symm.trans hpushing
    · rintro j kept rest ⟨⟩
      refine ⟨eq_false_of_ne_true fun htaken => ?_, fun task htask _ => htask⟩
      have hclosed := h.closed (Shutdown.hasClosed_of_hasTaken htaken)
      simp [hopen] at hclosed

omit [DecidableEq ι] in
theorem TasksTracked.retain (h : TasksTracked s) (hstep : s.retain = some s') : TasksTracked s' := by
  unfold BatchState.retain at hstep
  split at hstep
  · rename_i i kept hlock
    obtain rfl := Option.some.inj hstep
    obtain ⟨htaken, hkept⟩ := h.retaining i kept [] hlock
    refine { h with tracked := fun j hj => ?_, checking := nofun, retaining := nofun, taken := ?_ }
    · obtain htask | hpending | ⟨_, _, hpushing⟩ := h.tracked j hj
      · exact .inl (List.mem_append_left _ (by simpa using hkept j htask hj))
      · exact .inr (.inl hpending)
      · cases hlock.symm.trans hpushing
        exact .inl (List.mem_append_right _ (List.mem_singleton_self _))
    · intro hafter
      simp [htaken] at hafter
  · rename_i i kept task rest hlock
    obtain rfl := Option.some.inj hstep
    obtain ⟨htaken, hkept⟩ := h.retaining i kept (task :: rest) hlock
    have hpushed (j : ι) (hpushing : s.IsPushing j) : j = i := by
      obtain ⟨_, _, hpushing⟩ := hpushing
      cases hlock.symm.trans hpushing
      rfl
    refine { h with tracked := ?_, checking := nofun, retaining := ?_ }
    · intro j hj
      obtain htask | hpending | hpushing := h.tracked j hj
      · exact .inl htask
      · exact .inr (.inl hpending)
      · obtain rfl := hpushed j hpushing
        exact .inr (.inr ⟨_, rest, rfl⟩)
    · rintro j _ _ ⟨⟩
      refine ⟨htaken, fun other hother hrun => ?_⟩
      refine (kept_of_unfinished (hkept other hother hrun)).resolve_right fun hfinished => ?_
      rw [Phase.not_isRunning_of_isFinished hfinished] at hrun
      cases hrun
  · cases hstep

theorem TasksTracked.shutdownMoves (h : TasksTracked s) (hmoves : ShutdownMoves capacity s s') :
    TasksTracked s' := by
  have hlisted (hpending : s.shutdown.pending = []) (j : ι) (hj : (s.phases j).isRunning) :
      j ∈ s.batchTasks ∨ s.IsPushing j := by
    simpa [hpending] using h.tracked j hj
  cases hmoves with
  | begins hshutdown =>
    exact
      { h with
        tracked := fun j hj => (hlisted (by rw [hshutdown]; rfl) j hj).imp_right .inr
        retaining := fun i kept rest hlock => ⟨rfl, (h.retaining i kept rest hlock).2⟩
        closed := nofun
        taken := nofun }
  | asks hshutdown =>
    exact
      { h with
        tracked := fun j hj => (hlisted (by rw [hshutdown]; rfl) j hj).imp_right .inr
        retaining := fun i kept rest hlock => ⟨rfl, (h.retaining i kept rest hlock).2⟩
        closed := nofun
        taken := nofun }
  | obtains hshutdown _ =>
    exact
      { h with
        tracked := fun j hj => (hlisted (by rw [hshutdown]; rfl) j hj).imp_right .inr
        retaining := fun i kept rest hlock => ⟨rfl, (h.retaining i kept rest hlock).2⟩
        closed := nofun
        taken := nofun }
  | closes hshutdown =>
    exact
      { h with
        tracked := fun j hj => (hlisted (by rw [hshutdown]; rfl) j hj).imp_right .inr
        retaining := fun i kept rest hlock => ⟨rfl, (h.retaining i kept rest hlock).2⟩
        closed := fun _ => rfl
        taken := nofun }
  | takes hshutdown hlock =>
    have hfree {registration : Registration ι} (hnot : s.lock = some registration) : False := by
      cases hlock.symm.trans hnot
    refine
      { checking := h.checking
        retaining := fun i kept rest hnot => (hfree hnot).elim
        tracked := fun j hj => ?_
        closed := fun _ => h.closed (by rw [hshutdown]; rfl)
        taken := fun _ => rfl }
    obtain htask | hpending | ⟨_, _, hpushing⟩ := h.tracked j hj
    · exact .inr (.inl htask)
    · rw [hshutdown] at hpending
      cases hpending
    · exact (hfree hpushing).elim
  | drains htaken hnext _ _ hpending =>
    have htracked (j : ι) (hj : (s.phases j).isRunning) (hmem : j ∈ s.shutdown.pending) :=
      (hpending j hmem).resolve_right fun hfinished => by simp [Phase.not_isRunning_of_isFinished hfinished] at hj
    exact
      { h with
        tracked := fun j hj => (h.tracked j hj).imp_right fun hwaits => hwaits.imp_left (htracked j hj)
        retaining := fun i kept rest hlock => by
          have hnot := (h.retaining i kept rest hlock).1
          simp [htaken] at hnot
        closed := fun _ => h.closed (Shutdown.hasClosed_of_hasTaken htaken)
        taken := fun _ => h.taken htaken }
  | givesBack _ hclosed htaken hpending =>
    exact
      { h with
        tracked := fun j hj => (hlisted hpending j hj).imp_right .inr
        retaining := fun i kept rest hlock => (h.retaining i kept rest hlock).imp_left htaken.trans
        closed := fun hafter => h.closed (hclosed ▸ hafter)
        taken := fun hafter => h.taken (htaken ▸ hafter) }

end Tasks

section Queue

variable [DecidableEq ι] {capacity : ℕ} {s s' : BatchState ι} {i : ι}

/-- Nobody queues for a global slot behind the shutdown. -/
def BatchState.ShutdownLast (s : BatchState ι) : Prop :=
  ∀ n, (s.slots .global).Engaged none n → (s.slots .global).LastInQueue none

/-- Someone asks for a global slot only as long as the shutdown has not asked for all of them. -/
def BatchState.asksInTime (s : BatchState ι) : ShutdownStep ι → Bool
  | .party i (.advance _) => !(s.phases i matches .acquiring .global _) || !s.shutdown.asks
  | _ => true

theorem shutdownLast_moves (h : s.ShutdownLast) (hslots : s.SlotsKnown capacity)
    (hintime : ∀ identity, s.phases i = .acquiring .global identity → s.shutdown.asks = false)
    (hmoves : Moves s i s') : s'.ShutdownLast := by
  cases hmoves with
  | keeps heq _ _ _ _ _ => simpa only [BatchState.ShutdownLast, heq] using h
  | takes _ _ _ _ _ hqueues =>
    simp only [BatchState.ShutdownLast, Function.update_self]
    intro n hengaged
    have hbefore := (FifoSemaphore.engaged_of_acquire hengaged).resolve_right (by simp)
    obtain hwaiting | ⟨identity, hphase⟩ := hqueues
    · simpa only [FifoSemaphore.LastInQueue, hwaiting] using h n hbefore
    · have hasks := (hslots.asked n hbefore).2
      simp [hintime identity hphase] at hasks
  | drops _ _ _ _ =>
    simp only [BatchState.ShutdownLast, Function.update_self]
    intro n hengaged
    exact (h n (FifoSemaphore.engaged_of_release hengaged).2).release (by simp)
  | locks | refused | spawned => exact h

theorem shutdownLast_shutdownMoves (h : s.ShutdownLast) (hslots : s.SlotsKnown capacity) (hpos : 0 < capacity)
    (hmoves : ShutdownMoves capacity s s') : s'.ShutdownLast := by
  cases hmoves with
  | asks _ =>
    simp only [BatchState.ShutdownLast, Function.update_self]
    exact fun _ _ => hslots.wellFormed.lastInQueue_acquire hpos
  | givesBack _ _ _ _ =>
    simp only [BatchState.ShutdownLast, Function.update_self]
    exact fun n hengaged => absurd rfl (FifoSemaphore.engaged_of_release hengaged).1
  | begins | obtains | closes | takes | drains => exact h

end Queue

section Runs

variable [DecidableEq ι] {capacity : ℕ} {s s' : BatchState ι}

/-- The states which a gateway that begins to serve reaches by allowed steps of anyone, in any order. -/
def ShutdownReaches (limits : LiveConnections) (isBacklog : ι → Bool)
    (allowed : BatchState ι → ShutdownStep ι → Prop) : BatchState ι → Prop :=
  StepReaches (BatchState.step limits.val) allowed (.new limits isBacklog)

/-- Shutdown neither leaves nor strangles work: the list of tasks stays empty once it is taken and every task has
finished when shutdown returns; no provider call is in flight from the moment shutdown has all global slots until
it returns; and while it has them no task awaits one. -/
structure GracefulShutdown (s : BatchState ι) : Prop where
  nothing_enters : s.shutdown.hasTaken = true → s.batchTasks = []
  all_finished : s.shutdown.isReturned = true → ∀ i, (s.phases i).isRunning = false
  none_calling : s.shutdown.holdsAll = true → ∀ i, (s.phases i).isCalling = false
  none_waits : s.shutdown.holdsAll = true → ∀ i identity, s.phases i ≠ .waiting .global identity

/-- What is known in every state a gateway reaches. -/
structure ShutdownInvariant (capacity : ℕ) (s : BatchState ι) : Prop where
  slots : s.SlotsKnown capacity
  tasks : TasksTracked s

omit [DecidableEq ι] in
theorem shutdownInvariant_new (limits : LiveConnections) (isBacklog : ι → Bool) :
    ShutdownInvariant limits.val (.new limits isBacklog) where
  slots :=
    { wellFormed := FifoSemaphore.wellFormed_new _
      total_eq := FifoSemaphore.total_new _
      phase := fun i =>
        { engaged := fun n hengaged => absurd hengaged (FifoSemaphore.not_engaged_new _)
          holds := by
            simp only [BatchState.new]
            split <;> simp [Phase.holdsGlobal, Phase.slots]
          waits := fun identity hphase => by
            simp only [BatchState.new] at hphase
            split at hphase <;> cases hphase }
      asked := fun n hengaged => absurd hengaged (FifoSemaphore.not_engaged_new _)
      holdsAll := nofun }
  tasks :=
    { tracked := fun i hi => by
        simp only [BatchState.new] at hi
        split at hi <;> cases hi
      checking := nofun
      retaining := nofun
      closed := nofun
      taken := nofun }

theorem ShutdownInvariant.step (h : ShutdownInvariant capacity s) (hpos : 0 < capacity) {step : ShutdownStep ι}
    (hstep : s.step capacity step = some s') : ShutdownInvariant capacity s' := by
  cases step with
  | party i step =>
    have hmoves := moves_partyStep hstep
    exact ⟨h.slots.moves hmoves, h.tasks.moves hmoves⟩
  | retain =>
    refine ⟨?_, h.tasks.retain hstep⟩
    simp only [BatchState.step, BatchState.retain] at hstep
    split at hstep
    · exact Option.some.inj hstep ▸ h.slots
    · exact Option.some.inj hstep ▸ h.slots
    · cases hstep
  | beginShutdown => exact Option.some.inj hstep ▸ ⟨h.slots, { h.tasks with }⟩
  | shutdown =>
    have hmoves := shutdownMoves_shutdownStep hstep
    exact ⟨h.slots.shutdownMoves hpos hmoves, h.tasks.shutdownMoves hmoves⟩
  | timeOut =>
    have hmoves : ShutdownMoves capacity s s' := shutdownMoves_timeOut hstep
    exact ⟨h.slots.shutdownMoves hpos hmoves, h.tasks.shutdownMoves hmoves⟩
  | expire => exact Option.some.inj hstep ▸ ⟨h.slots, { h.tasks with }⟩

/-- Only going on touches a semaphore. -/
theorem slots_eq_of_not_advance {i : ι} {step : PartyStep} (hnot : ∀ row, step ≠ .advance row)
    (hstep : s.partyStep i step = some s') : s'.slots = s.slots := by
  cases step with
  | advance row => exact absurd rfl (hnot row)
  | leave =>
    simp only [BatchState.partyStep, BatchState.leave] at hstep
    split at hstep <;> first | exact (Option.some.inj hstep ▸ rfl : s'.slots = s.slots) | cases hstep
  | call | reply | stop =>
    simp only [BatchState.partyStep] at hstep
    split at hstep
    · exact Option.some.inj hstep ▸ rfl
    · cases hstep

theorem shutdownLast_step (h : s.ShutdownLast) (hinvariant : ShutdownInvariant capacity s) (hpos : 0 < capacity)
    {step : ShutdownStep ι} (hintime : s.asksInTime step = true) (hstep : s.step capacity step = some s') :
    s'.ShutdownLast := by
  cases step with
  | party i step =>
    by_cases hadvance : ∃ row, step = .advance row
    · obtain ⟨row, rfl⟩ := hadvance
      refine shutdownLast_moves h hinvariant.slots (fun identity hphase => ?_) (moves_advance hstep)
      simpa [BatchState.asksInTime, hphase] using hintime
    · have hslots := slots_eq_of_not_advance (not_exists.mp hadvance) hstep
      simpa only [BatchState.ShutdownLast, hslots] using h
  | retain =>
    simp only [BatchState.step, BatchState.retain] at hstep
    split at hstep
    · exact Option.some.inj hstep ▸ h
    · exact Option.some.inj hstep ▸ h
    · cases hstep
  | beginShutdown | expire => exact Option.some.inj hstep ▸ h
  | shutdown => exact shutdownLast_shutdownMoves h hinvariant.slots hpos (shutdownMoves_shutdownStep hstep)
  | timeOut => exact shutdownLast_shutdownMoves h hinvariant.slots hpos (shutdownMoves_timeOut hstep)

omit [DecidableEq ι] in
theorem ShutdownInvariant.gracefulShutdown (h : ShutdownInvariant capacity s) (hlast : s.ShutdownLast) :
    GracefulShutdown s where
  nothing_enters := h.tasks.taken
  all_finished hreturned i := by
    have htaken : s.shutdown.hasTaken = true ∧ s.shutdown.pending = [] := by
      match hshutdown : s.shutdown with
      | .returned _ _ => exact ⟨rfl, rfl⟩
      | .notCalled | .begun | .acquiring | .closing _ | .taking _ | .draining _ _ | .retaining _ _ _
      | .aborting _ _ _ | .joining _ _ _ => simp [hshutdown, Shutdown.isReturned] at hreturned
    by_contra hrunning
    obtain hlisted | hpending | ⟨kept, rest, hpushing⟩ := h.tasks.tracked i (eq_true_of_ne_false hrunning)
    · simp [h.tasks.taken htaken.1] at hlisted
    · simp [htaken.2] at hpending
    · have hnot := (h.tasks.retaining i kept rest hpushing).1
      simp [htaken.1] at hnot
  none_calling hall i := by
    by_contra hcalling
    refine h.slots.not_granted hall i ((h.slots.phase i).holds ?_)
    match hphase : s.phases i with
    | .executing _ _ _ => simp [Phase.holdsGlobal, Phase.slots, permits]
    | .arriving | .tryingGlobal | .recheckingGlobal | .tryingBatch | .tryingProvider | .admitting _ | .registering _
    | .left _ | .draining _ | .acquiring _ _ | .waiting _ _ | .recheckingAll _ | .ended _ =>
      simp [hphase, Phase.isCalling] at hcalling
  none_waits hall i identity hphase := by
    obtain hgranted | hqueued := (h.slots.phase i).waits identity hphase
    · exact h.slots.not_granted hall i hgranted
    · have hempty := h.slots.wellFormed.waiting_eq_nil (h.slots.holdsAll hall)
        (hlast capacity (.inl (h.slots.holdsAll hall)))
      have hwaiting := hqueued.mem_waiting
      simp [hempty] at hwaiting

/-- Whenever anyone steps, what is known of the slots and the tasks stays known. -/
theorem shutdownInvariant_of_reaches {limits : LiveConnections} {isBacklog : ι → Bool}
    {allowed : BatchState ι → ShutdownStep ι → Prop} (hreach : ShutdownReaches limits isBacklog allowed s) :
    ShutdownInvariant limits.val s :=
  hreach.invariant _ (shutdownInvariant_new limits isBacklog) fun _ _ _ h _ hstep => h.step limits.property.1 hstep

/-- As long as nobody asks for a global slot after the shutdown has asked for all of them, the shutdown is
graceful. -/
theorem gracefulShutdown_of_asksInTime {limits : LiveConnections} {isBacklog : ι → Bool}
    (hreach : ShutdownReaches limits isBacklog (fun s step => s.asksInTime step) s) : GracefulShutdown s := by
  have hinvariant : ShutdownInvariant limits.val s ∧ s.ShutdownLast := by
    refine hreach.invariant (fun s => ShutdownInvariant limits.val s ∧ s.ShutdownLast)
      ⟨shutdownInvariant_new limits isBacklog, fun n hn => ?_⟩ ?_
    · exact absurd hn (FifoSemaphore.not_engaged_new _)
    · intro s step s' h hintime hstep
      exact ⟨h.1.step limits.property.1 hstep, shutdownLast_step h.2 h.1 limits.property.1 hintime hstep⟩
  exact hinvariant.1.gracefulShutdown hinvariant.2

end Runs

/-- A gateway with one slot. -/
def oneConnection : LiveConnections := ⟨1, by decide⟩

/-- The startup backlog looks at the flag before the shutdown begins and asks for a global slot after the shutdown
has them all: it waits until the deadline, and the shutdown aborts it. -/
theorem gracefulShutdown_strangles :
    (∃ s, ShutdownReaches oneConnection (fun _ : Unit => true) (fun _ _ => True) s ∧ ¬ GracefulShutdown s) ∧
      ∃ s, ShutdownReaches oneConnection (fun _ : Unit => true) (fun _ _ => True) s ∧
        s.shutdown = .returned true 1 := by
  let advance : ShutdownStep Unit := .party () (.advance .deepgramNova3MultiV2)
  let waits : List (ShutdownStep Unit) :=
    [advance, advance, .retain, advance, .shutdown, .shutdown, .shutdown, advance]
  let aborts : List (ShutdownStep Unit) :=
    [.shutdown, .shutdown, .expire, .timeOut] ++ List.replicate 4 .shutdown ++
      [.party () .stop, advance, .shutdown, .shutdown]
  constructor
  · obtain ⟨s, hreach, hholds, hwaits⟩ :
        ∃ s, ShutdownReaches oneConnection (fun _ : Unit => true) (fun _ _ => True) s ∧
          s.shutdown.holdsAll = true ∧ s.phases () = .waiting .global .deepgramNova3MultiV2 :=
      exists_stepReaches waits (by decide)
    exact ⟨s, hreach, fun hgraceful => hgraceful.none_waits hholds () _ hwaits⟩
  · exact exists_stepReaches (waits ++ aborts) (by decide)

/-- The same backlog has its row executed and finishes before the shutdown begins. -/
theorem gracefulShutdown_drained :
    ∃ s : BatchState Unit, s.shutdown = .returned true 0 ∧ GracefulShutdown s := by
  let advance : ShutdownStep Unit := .party () (.advance .deepgramNova3MultiV2)
  let executes : List (ShutdownStep Unit) :=
    [advance, advance, .retain] ++ List.replicate 8 advance ++
      [.party () .call, .party () .reply, .party () .leave] ++ List.replicate 3 advance ++ [.party () .leave]
  obtain ⟨s, hreach, hreturned⟩ :
      ∃ s, ShutdownReaches oneConnection (fun _ : Unit => true) (fun s step => s.asksInTime step) s ∧
        s.shutdown = .returned true 0 :=
    exists_stepReaches (executes ++ List.replicate 10 .shutdown) (by decide)
  exact ⟨s, hreturned, gracefulShutdown_of_asksInTime hreach⟩

end Voicetext.Gateway.Server
