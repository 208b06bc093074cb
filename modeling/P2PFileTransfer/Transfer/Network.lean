import P2PFileTransfer.Core.FolderReceiver
import P2PFileTransfer.Core.SendPath

/-!
# A sender and a receiver on a connection that may break

One `send_path` call after the other at the sender, one `receive_to` call for each
connection at the receiver.  A connection carries control messages in order in both
directions and chunk streams in the order they were opened, and each direction may break
at any time, unnoticed by either side: what is sent into a broken direction is lost, what
has arrived stays readable, and from then on every wait on the connection may fail.  A
local file operation may fail at any time, and the sender may be started again at any
time, from its state file and on a new connection; the receiver listens for one when its
last call is over.

`resumed`, `announced` and the file a stream was cut from are only recorded: no step
depends on them.
-/

namespace P2PFileTransfer.Transfer.Network

open P2PFileTransfer.Foundation.ByteFile
open P2PFileTransfer.Foundation.FileSystem
open P2PFileTransfer.Foundation.Process
open P2PFileTransfer.Foundation.UnixPath
open P2PFileTransfer.Core
open P2PFileTransfer.Core.Protocol
open P2PFileTransfer.Core.TransferFile
open P2PFileTransfer.Core.TransferFolder
open P2PFileTransfer.Core.SendPath

/-- What never changes: the library functions, the chunk size, where the two sides work,
the files at the sender and its bound on attempts. -/
structure Setup where
  codec : Codec
  chunkSize : UInt32
  basePath : OsStr
  outputDir : OsStr
  source : Store
  maxAttempts : Nat

structure Link where
  config : ConfigMessage
  /-- The state its first attempt started from. -/
  resumed : FolderTransferState
  forward : Bool
  backward : Bool
  toReceiver : List Message
  toSender : List Message
  /-- Every stream that got through, with the file it was cut from. -/
  opened : List (Nat × Bytes)
  /-- How many of them the receiver has accepted. -/
  accepted : Nat
  /-- Whether the last stream got through, so that it is acknowledged. -/
  delivered : Bool
  /-- The first manifest written to the connection. -/
  announced : Option TransferInfo

def Link.new (config : ConfigMessage) (resumed : FolderTransferState) : Link where
  config := config
  resumed := resumed
  forward := true
  backward := true
  toReceiver := []
  toSender := []
  opened := []
  accepted := 0
  delivered := false
  announced := none

/-- Both sides and the connection between them. -/
structure State where
  sender : Phase
  saved : SavedState
  receiver : FolderReceiver.ReceiverState
  link : Link

/-- How one side uses the connection or its environment next. -/
inductive Move (Answer : Type) where
  | proceed
  | answer (answer : Answer)
  | fail (error : Error) (written : Nat)

/-- The errors a broken connection shows up as; a frame cut short is a protocol error. -/
def fromConnection : Error → Bool
  | .disconnected | .network _ | .quic _ | .protocol _ => true
  | _ => false

/-- A wait on the connection fails only when the connection is broken. -/
def Link.permits (link : Link) (action : Action Message) (error : Error) : Bool :=
  match action with
  | .compute | .ask | .perform _ => true
  | .send _ | .receive | .openStream _ | .awaitStopped | .acceptStream =>
      (!link.forward || !link.backward) && fromConnection error

def Link.announce (link : Link) (message : Message) : Option TransferInfo :=
  match link.announced, message with
  | none, .transferInfo info => some info
  | announced, _ => announced

def Link.sendForward (link : Link) (message : Message) : Link :=
  { link with
    toReceiver := if link.forward then link.toReceiver ++ [message] else link.toReceiver
    announced := link.announce message }

def Link.sendBackward (link : Link) (message : Message) : Link :=
  { link with
    toSender := if link.backward then link.toSender ++ [message] else link.toSender }

def Link.openStream (link : Link) (file : Nat) (raw : Bytes) : Link :=
  { link with
    opened := if link.forward then link.opened ++ [(file, raw)] else link.opened
    delivered := link.forward }

/-- The file a sender is at when it opens a stream. -/
def streamFile : FolderSender.Stage → Nat
  | .openStream task _ => task.index
  | _ => 0

/-- The input a move of the sender feeds it, and the connection after it. -/
def Link.feedSender (link : Link) (point : FolderSender.Point) (action : Action Message)
    (move : Move FolderSender.Scan) : Option (FolderSender.SenderInput × Link) :=
  match move with
  | .fail error written =>
      if link.permits action error then some (.fail error written, link) else none
  | .answer answer =>
      match action with
      | .ask => some (.answer answer, link)
      | _ => none
  | .proceed =>
      match action with
      | .compute | .perform _ => some (.proceed, link)
      | .send message => some (.proceed, link.sendForward message)
      | .receive =>
          match link.toSender with
          | [] => none
          | message :: rest => some (.message message, { link with toSender := rest })
      | .openStream raw => some (.proceed, link.openStream (streamFile point.stage) raw)
      | .awaitStopped => if link.delivered then some (.proceed, link) else none
      | .ask | .acceptStream => none

/-- The same for the receiver. -/
def Link.feedReceiver (link : Link) (action : Action Message) (move : Move Bool) :
    Option (FolderReceiver.ReceiverInput × Link) :=
  match move with
  | .fail error written =>
      if link.permits action error then some (.fail error written, link) else none
  | .answer answer =>
      match action with
      | .ask => some (.answer answer, link)
      | _ => none
  | .proceed =>
      match action with
      | .compute | .perform _ => some (.proceed, link)
      | .send message => some (.proceed, link.sendBackward message)
      | .receive =>
          match link.toReceiver with
          | [] => none
          | message :: rest => some (.message message, { link with toReceiver := rest })
      | .acceptStream =>
          match link.opened[link.accepted]? with
          | none => none
          | some (_, raw) => some (.stream raw, { link with accepted := link.accepted + 1 })
      | .ask | .openStream _ | .awaitStopped => none

def senderSession (setup : Setup) (link : Link) (call : Call) : FolderSender.Session :=
  Settings.session
    { codec := setup.codec
      config := link.config
      basePath := setup.basePath
      maxAttempts := setup.maxAttempts } call

def receiverSession (setup : Setup) (link : Link) : FolderReceiver.Session where
  codec := setup.codec
  config := link.config
  outputDir := setup.outputDir

inductive Event where
  /-- Start `send_path` on a new connection. -/
  | start (config : ConfigMessage) (freshId newId : Uuid) (durationMs : Nat)
  | sender (move : Move FolderSender.Scan)
  | receiver (move : Move Bool)
  | loseForward
  | loseBackward
  /-- Leave a failed attempt. -/
  | save (outcome : SaveOutcome)
  | reconnect (succeeds : Bool)
  /-- Leave the attempt that succeeded. -/
  | finish (removed : Bool)

/-- A new connection between an attempt of the sender and a call of the receiver. -/
def connect (world : State) (config : ConfigMessage) (call : Call) (attempt : Nat)
    (memory : FolderTransferState) : State where
  sender := startAttempt call attempt memory
  saved := world.saved
  receiver := FolderReceiver.start world.receiver.store
  link := .new config memory

/-- The state an attempt on a new connection starts from. -/
def Event.resumes (world : State) : Event → Option FolderTransferState
  | .start config freshId _ _ => some (loadState world.saved freshId config)
  | .reconnect true =>
      match world.sender with
      | .retrying _ _ memory => some memory
      | _ => none
  | _ => none

def stepSender (setup : Setup) (world : State) (move : Move FolderSender.Scan) : Option State :=
  match world.sender with
  | .sending call attempt (.running point) =>
      let session := senderSession setup world.link call
      match world.link.feedSender point (FolderSender.action session point) move with
      | none => none
      | some (input, link) =>
          ((FolderSender.machine session).step ⟨.running point, setup.source⟩ input).map
            fun next => { world with sender := .sending call attempt next.status, link := link }
  | _ => none

def stepReceiver (setup : Setup) (world : State) (move : Move Bool) : Option State :=
  match world.receiver.status with
  | .running point =>
      let session := receiverSession setup world.link
      match world.link.feedReceiver (FolderReceiver.action session point) move with
      | none => none
      | some (input, link) =>
          ((FolderReceiver.machine session).step world.receiver input).map
            fun next => { world with receiver := next, link := link }
  | _ => none

def step (setup : Setup) (world : State) : Event → Option State
  | .start config freshId newId durationMs =>
      match openCall true setup.basePath world.saved freshId newId durationMs config with
      | .ok (call, memory) =>
          if world.receiver.status.Halted ∧ config.chunkSize = setup.chunkSize then
            some (connect world config call 0 memory)
          else none
      | .error _ => none
  | .sender move => stepSender setup world move
  | .receiver move => stepReceiver setup world move
  | .loseForward => some { world with link := { world.link with forward := false } }
  | .loseBackward => some { world with link := { world.link with backward := false } }
  | .save outcome =>
      match world.sender with
      | .sending call attempt (.failed point error) =>
          some { world with
            sender := afterFailure setup.maxAttempts call attempt point error
            saved := save outcome point.memory world.saved }
      | _ => none
  | .reconnect succeeds =>
      match world.sender with
      | .retrying call attempt memory =>
          if succeeds then
            if world.receiver.status.Halted then
              some (connect world world.link.config call (attempt + 1) memory)
            else none
          else some { world with sender := startAttempt call (attempt + 1) memory }
      | _ => none
  | .finish removed =>
      match world.sender with
      | .sending _ _ (.returned memory) =>
          some { world with
            sender := .returned memory
            saved := if removed then .absent else world.saved }
      | _ => none

/-- No attempt yet, no state file, and the receiver's last call, if any, is over. -/
def initial (setup : Setup) (store : Store) : State where
  sender := .idle
  saved := .absent
  receiver := ⟨.returned .default, store⟩
  link :=
    let config := { ConfigMessage.default with chunkSize := setup.chunkSize }
    .new config (freshState (FixedBytes.filled 16 0) config)

abbrev run (setup : Setup) : State → List Event → Option State :=
  Foundation.Run.run (step setup)

/-! ## How a move uses the connection -/

/-- The input and the connection a move of the sender leads to. -/
inductive SenderFed (link : Link) (point : FolderSender.Point) :
    Action Message → Move FolderSender.Scan → FolderSender.SenderInput → Link → Prop where
  | fail {action : Action Message} {error : Error} {written : Nat}
      (hpermits : link.permits action error = true) :
      SenderFed link point action (.fail error written) (.fail error written) link
  | answer {scan : FolderSender.Scan} :
      SenderFed link point .ask (.answer scan) (.answer scan) link
  | compute : SenderFed link point .compute .proceed .proceed link
  | perform {operation : Operation} :
      SenderFed link point (.perform operation) .proceed .proceed link
  | send {message : Message} :
      SenderFed link point (.send message) .proceed .proceed (link.sendForward message)
  | receive {message : Message} {rest : List Message} (hhead : link.toSender = message :: rest) :
      SenderFed link point .receive .proceed (.message message) { link with toSender := rest }
  | openStream {raw : Bytes} :
      SenderFed link point (.openStream raw) .proceed .proceed
        (link.openStream (streamFile point.stage) raw)
  | awaitStopped (hdelivered : link.delivered = true) :
      SenderFed link point .awaitStopped .proceed .proceed link

theorem senderFed_of_feed {link after : Link} {point : FolderSender.Point} {action : Action Message}
    {move : Move FolderSender.Scan} {input : FolderSender.SenderInput}
    (hfeed : link.feedSender point action move = some (input, after)) :
    SenderFed link point action move input after := by
  cases move with
  | fail error written =>
      rw [Link.feedSender] at hfeed
      split at hfeed
      · rename_i hpermits
        cases hfeed
        exact .fail hpermits
      · cases hfeed
  | answer scan =>
      cases action <;> cases hfeed
      exact .answer
  | proceed =>
      cases action with
      | compute =>
          cases hfeed
          exact .compute
      | perform operation =>
          cases hfeed
          exact .perform
      | send message =>
          cases hfeed
          exact .send
      | openStream raw =>
          cases hfeed
          exact .openStream
      | ask | acceptStream => cases hfeed
      | receive =>
          simp only [Link.feedSender] at hfeed
          split at hfeed
          · cases hfeed
          · rename_i message rest hhead
            cases hfeed
            exact .receive hhead
      | awaitStopped =>
          simp only [Link.feedSender] at hfeed
          split at hfeed
          · rename_i hdelivered
            cases hfeed
            exact .awaitStopped hdelivered
          · cases hfeed

/-- The input and the connection a move of the receiver leads to. -/
inductive ReceiverFed (link : Link) :
    Action Message → Move Bool → FolderReceiver.ReceiverInput → Link → Prop where
  | fail {action : Action Message} {error : Error} {written : Nat}
      (hpermits : link.permits action error = true) :
      ReceiverFed link action (.fail error written) (.fail error written) link
  | answer {accept : Bool} : ReceiverFed link .ask (.answer accept) (.answer accept) link
  | compute : ReceiverFed link .compute .proceed .proceed link
  | perform {operation : Operation} : ReceiverFed link (.perform operation) .proceed .proceed link
  | send {message : Message} :
      ReceiverFed link (.send message) .proceed .proceed (link.sendBackward message)
  | receive {message : Message} {rest : List Message} (hhead : link.toReceiver = message :: rest) :
      ReceiverFed link .receive .proceed (.message message) { link with toReceiver := rest }
  | acceptStream {file : Nat} {raw : Bytes}
      (hopened : link.opened[link.accepted]? = some (file, raw)) :
      ReceiverFed link .acceptStream .proceed (.stream raw)
        { link with accepted := link.accepted + 1 }

theorem receiverFed_of_feed {link after : Link} {action : Action Message} {move : Move Bool}
    {input : FolderReceiver.ReceiverInput}
    (hfeed : link.feedReceiver action move = some (input, after)) :
    ReceiverFed link action move input after := by
  cases move with
  | fail error written =>
      rw [Link.feedReceiver] at hfeed
      split at hfeed
      · rename_i hpermits
        cases hfeed
        exact .fail hpermits
      · cases hfeed
  | answer accept =>
      cases action <;> cases hfeed
      exact .answer
  | proceed =>
      cases action with
      | compute =>
          cases hfeed
          exact .compute
      | perform operation =>
          cases hfeed
          exact .perform
      | send message =>
          cases hfeed
          exact .send
      | ask | openStream _ | awaitStopped => cases hfeed
      | receive =>
          simp only [Link.feedReceiver] at hfeed
          split at hfeed
          · cases hfeed
          · rename_i message rest hhead
            cases hfeed
            exact .receive hhead
      | acceptStream =>
          simp only [Link.feedReceiver] at hfeed
          split at hfeed
          · cases hfeed
          · rename_i file raw hopened
            cases hfeed
            exact .acceptStream hopened

/-- A step of the sender within an attempt. -/
inductive SenderStepped (setup : Setup) (world : State) (move : Move FolderSender.Scan) :
    State → Prop where
  | intro {call : Call} {attempt : Nat} {point : FolderSender.Point}
      {input : FolderSender.SenderInput} {link : Link} {next : FolderSender.SenderState}
      (hsender : world.sender = .sending call attempt (.running point))
      (hfed : SenderFed world.link point
        (FolderSender.action (senderSession setup world.link call) point) move input link)
      (hstep : (FolderSender.machine (senderSession setup world.link call)).step
        ⟨.running point, setup.source⟩ input = some next) :
      SenderStepped setup world move
        { world with sender := .sending call attempt next.status, link := link }

theorem senderStepped_of_step {setup : Setup} {world next : State}
    {move : Move FolderSender.Scan} (hstep : stepSender setup world move = some next) :
    SenderStepped setup world move next := by
  rw [stepSender] at hstep
  split at hstep
  · rename_i call attempt point hsender
    dsimp only at hstep
    split at hstep
    · cases hstep
    · rename_i input link hfeed
      obtain ⟨after, hmachine, rfl⟩ := Option.map_eq_some_iff.mp hstep
      exact .intro hsender (senderFed_of_feed hfeed) hmachine
  · cases hstep

/-- A step of the receiver within a call. -/
inductive ReceiverStepped (setup : Setup) (world : State) (move : Move Bool) : State → Prop where
  | intro {point : FolderReceiver.Point} {input : FolderReceiver.ReceiverInput} {link : Link}
      {next : FolderReceiver.ReceiverState} (hreceiver : world.receiver.status = .running point)
      (hfed : ReceiverFed world.link
        (FolderReceiver.action (receiverSession setup world.link) point) move input link)
      (hstep : (FolderReceiver.machine (receiverSession setup world.link)).step world.receiver
        input = some next) :
      ReceiverStepped setup world move { world with receiver := next, link := link }

theorem receiverStepped_of_step {setup : Setup} {world next : State} {move : Move Bool}
    (hstep : stepReceiver setup world move = some next) :
    ReceiverStepped setup world move next := by
  rw [stepReceiver] at hstep
  split at hstep
  · rename_i point hreceiver
    dsimp only at hstep
    split at hstep
    · cases hstep
    · rename_i input link hfeed
      obtain ⟨after, hmachine, rfl⟩ := Option.map_eq_some_iff.mp hstep
      exact .intro hreceiver (receiverFed_of_feed hfeed) hmachine
  · cases hstep

/-- What one event of a run finds, and what it leaves. -/
inductive NetworkStepped (setup : Setup) (world : State) : Event → State → Prop where
  | start {config : ConfigMessage} {freshId newId : Uuid} {durationMs : Nat} (call : Call)
      (hhalted : world.receiver.status.Halted) (hchunkSize : config.chunkSize = setup.chunkSize) :
      NetworkStepped setup world (.start config freshId newId durationMs)
        (connect world config call 0 (loadState world.saved freshId config))
  | sender {move : Move FolderSender.Scan} {next : State}
      (hsender : SenderStepped setup world move next) :
      NetworkStepped setup world (.sender move) next
  | receiver {move : Move Bool} {next : State} (hreceiver : ReceiverStepped setup world move next) :
      NetworkStepped setup world (.receiver move) next
  | loseForward :
      NetworkStepped setup world .loseForward
        { world with link := { world.link with forward := false } }
  | loseBackward :
      NetworkStepped setup world .loseBackward
        { world with link := { world.link with backward := false } }
  | save {call : Call} {attempt : Nat} {point : FolderSender.Point} {error : Error}
      (outcome : SaveOutcome) (hsender : world.sender = .sending call attempt (.failed point error)) :
      NetworkStepped setup world (.save outcome)
        { world with
          sender := afterFailure setup.maxAttempts call attempt point error
          saved := save outcome point.memory world.saved }
  | reconnect {call : Call} {attempt : Nat} {memory : FolderTransferState}
      (hsender : world.sender = .retrying call attempt memory)
      (hhalted : world.receiver.status.Halted) :
      NetworkStepped setup world (.reconnect true)
        (connect world world.link.config call (attempt + 1) memory)
  | unreachable {call : Call} {attempt : Nat} {memory : FolderTransferState}
      (hsender : world.sender = .retrying call attempt memory) :
      NetworkStepped setup world (.reconnect false)
        { world with sender := startAttempt call (attempt + 1) memory }
  | finish {call : Call} {attempt : Nat} {memory : FolderTransferState} (removed : Bool)
      (hsender : world.sender = .sending call attempt (.returned memory)) :
      NetworkStepped setup world (.finish removed)
        { world with
          sender := .returned memory
          saved := if removed then .absent else world.saved }

theorem networkStepped_of_step {setup : Setup} {world next : State} {event : Event}
    (hstep : step setup world event = some next) : NetworkStepped setup world event next := by
  cases event with
  | start config freshId newId durationMs =>
      simp only [step, openCall, if_true] at hstep
      split at hstep
      · rename_i hready
        cases hstep
        exact .start _ hready.1 hready.2
      · cases hstep
  | sender move => exact .sender (senderStepped_of_step hstep)
  | receiver move => exact .receiver (receiverStepped_of_step hstep)
  | loseForward =>
      cases hstep
      exact .loseForward
  | loseBackward =>
      cases hstep
      exact .loseBackward
  | save outcome =>
      simp only [step] at hstep
      split at hstep
      · rename_i hsender
        cases hstep
        exact .save outcome hsender
      · cases hstep
  | reconnect succeeds =>
      simp only [step] at hstep
      split at hstep
      · rename_i hsender
        cases succeeds with
        | true =>
            rw [if_pos rfl] at hstep
            split at hstep
            · rename_i hhalted
              cases hstep
              exact .reconnect hsender hhalted
            · cases hstep
        | false =>
            rw [if_neg Bool.false_ne_true] at hstep
            cases hstep
            exact .unreachable hsender
      · cases hstep
  | finish removed =>
      simp only [step] at hstep
      split at hstep
      · rename_i hsender
        cases hstep
        exact .finish removed hsender
      · cases hstep

/-- The transfer state of a sender whose phase is known. -/
theorem memory?_of_sender {world : State} {phase : Phase} {memory : FolderTransferState}
    (hsender : world.sender = phase) (hmemory : phase.memory? = some memory) :
    world.sender.memory? = some memory := by
  rw [hsender, hmemory]

end P2PFileTransfer.Transfer.Network
