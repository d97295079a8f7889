import Voicetext.Gateway.Server.LiveProtocol

/-!
# A live session and its surroundings

One coordinator serves a session. The client, the provider, the decoder and the clock answer as they like, in
any order, and a future which loses a race may have been polled already: a write which was polled has its
sequence, and a finalization which was polled has begun, whether or not the provider has answered.
-/

namespace Voicetext.Gateway.Server.LiveTransport

open Voicetext.Common Voicetext.Speech.Application Voicetext.Gateway.Contracts
open Voicetext.Speech.Domain (RawAudioSequence FinalizeOutcome)

/-- The coordinator of a session, the write it is in the middle of, and what the session has done. -/
structure LiveWorld (ids : SessionIds) where
  coordinator : Option LiveCoordinator
  writing : Option (PendingAudioAcceptance × LiveAudioFrame)
  log : List (LiveEvent ids)

/-- What the surroundings choose to answer. -/
inductive LiveChoice (ids : SessionIds)
  | configuration (received : Option Received)
  | raced (raced : Raced)
  | client (received : Received) (polled : Bool)
  | elapsed (polled : Bool)
  | answer (provider : ProviderAnswer)
  | event (received : ProviderEvent)
  | identifier (uuid : ids.Uuid)
  | taken (sent : Bool)
  | pcm (decoded : Option (List UInt8))
  | passed (deadline : Bool)
  | now

namespace LiveWorld

variable {ids : SessionIds}

/-- A session before its first operation. -/
def start : LiveWorld ids := ⟨none, none, []⟩

variable (world : LiveWorld ids)

def record (event : LiveEvent ids) : LiveWorld ids := { world with log := world.log ++ [event] }

def withCoordinator (coordinator : LiveCoordinator) : LiveWorld ids := { world with coordinator := some coordinator }

@[simp] theorem record_log (event : LiveEvent ids) : (world.record event).log = world.log ++ [event] := rfl

@[simp] theorem withCoordinator_log (coordinator : LiveCoordinator) :
    (world.withCoordinator coordinator).log = world.log := rfl

/-- Poll a write: its first poll starts it. -/
def pollWrite (pcm : List UInt8) : Option (LiveWorld ids × Except LiveCoordinatorError Unit) :=
  match world.writing with
  | some _ => some (world, .ok ())
  | none => world.coordinator.map fun coordinator =>
    match coordinator.startProviderWrite pcm with
    | (coordinator, .error error) => (world.withCoordinator coordinator, .error error)
    | (coordinator, .ok (pending, frame)) =>
      ({ (world.record (.accepted frame)).withCoordinator coordinator with writing := some (pending, frame) }, .ok ())

/-- The provider answers the write which was started. -/
def finishWrite (provider : ProviderAnswer) :
    Option (LiveWorld ids × Except LiveCoordinatorError RawAudioSequence) :=
  match world.writing, world.coordinator with
  | some (pending, frame), some coordinator =>
    let (coordinator, result) := coordinator.finishProviderWrite pending frame.sequence provider
    let world := { world.withCoordinator coordinator with writing := none }
    some (if provider.isOk then world.record (.written frame.sequence) else world, result)
  | _, _ => none

/-- Poll a finalization, which starts it. -/
def pollFinalize : Option (LiveWorld ids × Except LiveCoordinatorError Unit) :=
  world.coordinator.map fun coordinator =>
    let (coordinator, result) := coordinator.startFinalize
    (world.withCoordinator coordinator, result)

/-- The provider answers the finalization which was started. -/
def finishFinalize (provider : ProviderAnswer) : Option (LiveWorld ids × Except LiveCoordinatorError Unit) :=
  world.coordinator.map fun coordinator =>
    let (coordinator, result) := coordinator.finishFinalize provider
    let world := world.withCoordinator coordinator
    (if result.isOk then world.record .begun else world, result)

/-- A future loses its race, whether or not it was polled before. -/
def lose {α : Type} (poll : Option (LiveWorld ids × Except LiveCoordinatorError Unit)) (polled : Bool)
    (reply : Contest (Except LiveCoordinatorError α)) :
    Option (LiveWorld ids × Contest (Except LiveCoordinatorError α)) :=
  if polled then
    poll.map fun
      | (world, .ok ()) => (world, reply)
      | (world, .error error) => (world, .ready (.error error))
  else some (world, reply)

/-- A future wins its race with the answer of the provider. -/
def win {α : Type} (poll : Option (LiveWorld ids × Except LiveCoordinatorError Unit))
    (finish : LiveWorld ids → Option (LiveWorld ids × Except LiveCoordinatorError α)) :
    Option (LiveWorld ids × Contest (Except LiveCoordinatorError α)) :=
  poll.bind fun
    | (world, .ok ()) => (finish world).map fun (world, result) => (world, .ready result)
    | (world, .error error) => some (world, .ready (.error error))

/-- Serve one operation with one choice. -/
def serve : (op : LiveOp ids) → LiveChoice ids → Option (LiveWorld ids × op.Reply)
  | .recvConfig, .configuration received => some (world, received)
  | .openCoordinator request, .answer provider =>
    match LiveCoordinator.openSession request provider with
    | .ok coordinator => some ((world.record .opened).withCoordinator coordinator, some (.ok ()))
    | .error error => some (world, some (.error error))
  | .openCoordinator _, .elapsed _ => some (world, none)
  | .newSessionId, .identifier uuid => some (world, uuid)
  | .sendText message json, .taken sent => some (if sent then world.record (.sent message json) else world, sent)
  | .sendPong _, .taken sent => some (if sent then world.record .ponged else world, sent)
  | .sendClose normal, .taken sent => some (if sent then world.record (.closed normal) else world, ())
  | .race, .raced raced => some (world, raced)
  | .decode _, .pcm decoded => some (world, decoded)
  | .raceWrite pcm, .client received polled => world.lose (world.pollWrite pcm) polled (.client received)
  | .raceWrite pcm, .elapsed polled => world.lose (world.pollWrite pcm) polled .elapsed
  | .raceWrite pcm, .answer provider => win (world.pollWrite pcm) fun world => world.finishWrite provider
  | .ackSent sequence, .now => world.coordinator.map fun coordinator =>
    let (coordinator, result) := coordinator.ackSent sequence
    (world.withCoordinator coordinator, result)
  | .applyProviderEvent received, .now => world.coordinator.map fun coordinator =>
    let (coordinator, result) := coordinator.applyProviderEvent received
    let world := world.withCoordinator coordinator
    (if result.isOk then world.record (.applied received) else world, result)
  | .pendingAudioCount, .now => world.coordinator.map fun coordinator =>
    (world, coordinator.domain.pendingAudioCount)
  | .raceFinalize, .client received polled => world.lose world.pollFinalize polled (.client received)
  | .raceFinalize, .elapsed polled => world.lose world.pollFinalize polled .elapsed
  | .raceFinalize, .answer provider => win world.pollFinalize fun world => world.finishFinalize provider
  | .raceDrain _, .client received _ => some (world, .client received)
  | .raceDrain _, .elapsed _ => some (world, .elapsed)
  | .raceDrain _, .event received => some (world, .ready received)
  | .deadlinePassed, .passed deadline => some (world, deadline)
  | .completeFinalize status, .now => world.coordinator.map fun coordinator =>
    let (coordinator, result) := coordinator.completeFinalize status
    ((world.withCoordinator coordinator).record (.completed status result), result)
  | .observe _, .now => some (world, ())
  | .closeCoordinator, .answer provider => world.coordinator.map fun coordinator =>
    (world.withCoordinator (coordinator.close (some provider)).1, ())
  | .closeCoordinator, .elapsed _ => some (world, ())
  | _, _ => none

end LiveWorld

/-- The surroundings may serve an operation so. -/
def Serves {ids : SessionIds} (world : LiveWorld ids) (op : LiveOp ids) (world' : LiveWorld ids) (reply : op.Reply) :
    Prop := ∃ choice, world.serve op choice = some (world', reply)

end Voicetext.Gateway.Server.LiveTransport
