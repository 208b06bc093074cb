import P2PFileTransfer.Core.FolderReceiver
import P2PFileTransfer.Core.SendPath
import P2PFileTransfer.Session.Rendezvous

/-!
# The configuration in force

The configuration of a session is the one of the side that initiates its handshake: the
client of a direct session, the smaller device identifier of a rendezvous.  Which side
sends plays no part, and neither does the configuration a loaded transfer state carries,
so both are in force only when they happen to agree with the initiator's.
-/

namespace P2PFileTransfer.Session.Configuration

open P2PFileTransfer.Foundation.FileSystem
open P2PFileTransfer.Foundation.Process
open P2PFileTransfer.Foundation.UnixPath
open P2PFileTransfer.Core
open P2PFileTransfer.Core.Protocol
open P2PFileTransfer.Core.TransferFile
open P2PFileTransfer.Core.TransferFolder
open P2PFileTransfer.Core.SendPath
open P2PFileTransfer.Session.Handshake

/-! ## Two sides on one control stream -/

/-- The sending and the receiving side, and the messages on their way to each. -/
structure Negotiation where
  sender : HandshakeState
  receiver : HandshakeState
  toSender : List Message
  toReceiver : List Message

/-- Whose turn it is, and the error its wait ends with, if any. -/
inductive Turn where
  | sender (failure : Option Error)
  | receiver (failure : Option Error)

/-- One turn of a side: its next state, what it leaves unread and what it sends. -/
def turn (party : Party) (state : HandshakeState) (inbox : List Message)
    (failure : Option Error) : Option (HandshakeState × List Message × List Message) :=
  match state.status with
  | .running stage =>
      match failure, action party stage, inbox with
      | some error, _, inbox =>
          ((machine party).step state (.fail error 0)).map fun next => (next, inbox, [])
      | none, .send message, inbox =>
          ((machine party).step state .proceed).map fun next => (next, inbox, [message])
      | none, .receive, message :: rest =>
          ((machine party).step state (.message message)).map fun next => (next, rest, [])
      | none, _, _ => none
  | _ => none

def step (sender receiver : Party) (negotiation : Negotiation) : Turn → Option Negotiation
  | .sender failure =>
      (turn sender negotiation.sender negotiation.toSender failure).map fun (next, rest, sent) =>
        { negotiation with
          sender := next
          toSender := rest
          toReceiver := negotiation.toReceiver ++ sent }
  | .receiver failure =>
      (turn receiver negotiation.receiver negotiation.toReceiver failure).map
        fun (next, rest, sent) =>
          { negotiation with
            receiver := next
            toReceiver := rest
            toSender := negotiation.toSender ++ sent }

def start (senderInitiates receiverInitiates : Bool) : Negotiation where
  sender := begin senderInitiates
  receiver := begin receiverInitiates
  toSender := []
  toReceiver := []

abbrev run (sender receiver : Party) : Negotiation → List Turn → Option Negotiation :=
  Foundation.Run.run (step sender receiver)

/-! ## What a negotiation keeps -/

section Keeping

variable {party sender receiver : Party} {known senderKnows receiverKnows : StageStatus → Prop}
  {heard said senderSays receiverSays : Message → Prop}

/-- The stages of a side keep what it knows, as long as it hears only what may be said, and
it says only what may be heard. -/
structure Maintains (party : Party) (known : StageStatus → Prop) (heard said : Message → Prop) :
    Prop where
  resume : ∀ stage reply, (action party stage).Fits reply →
    (∀ message, reply = .message message → heard message) →
    known (.running stage) → known (Handshake.resume party stage reply)
  fail : ∀ stage error, known (.running stage) → known (.failed stage error)
  send : ∀ stage message, action party stage = .send message → known (.running stage) →
    said message

/-- A turn keeps what is known on the one side and said on the other. -/
theorem Maintains.turn (hkeeps : Maintains party known heard said) {state next : HandshakeState}
    {inbox rest sent : List Message} {failure : Option Error}
    (hturn : Configuration.turn party state inbox failure = some (next, rest, sent))
    (hinbox : ∀ message ∈ inbox, heard message) (hknown : known state.status) :
    known next.status ∧ (∀ message ∈ rest, heard message) ∧ ∀ message ∈ sent, said message := by
  unfold Configuration.turn at hturn
  split at hturn
  · rename_i stage hstatus
    rw [hstatus] at hknown
    split at hturn
    · obtain ⟨after, hstep, hresult⟩ := Option.map_eq_some_iff.mp hturn
      cases hresult
      cases stepped_of_step hstep with
      | fail hrunning hstore hnext =>
          rw [hstatus] at hrunning
          cases hrunning
          rw [hnext]
          exact ⟨hkeeps.fail _ _ hknown, hinbox, nofun⟩
      | resume hrunning hreply hnext =>
          rename_i other reply store
          cases haction : (machine party).action other <;> rw [haction] at hreply <;> cases hreply
    · rename_i message haction
      obtain ⟨after, hstep, hresult⟩ := Option.map_eq_some_iff.mp hturn
      cases hresult
      refine ⟨?_, hinbox, ?_⟩
      · have hreply : ((machine party).action stage).reply (.proceed : HandshakeInput) state.store =
            some (.done, state.store) := by
          change (action party stage).reply _ _ = _
          rw [haction]
          rfl
        rw [step_resume hstatus hreply] at hstep
        cases hstep
        exact hkeeps.resume _ _ (Action.fits_of_reply hreply) nofun hknown
      · intro other hother
        rw [List.mem_singleton.mp hother]
        exact hkeeps.send _ _ haction hknown
    · rename_i message unread haction
      obtain ⟨after, hstep, hresult⟩ := Option.map_eq_some_iff.mp hturn
      cases hresult
      refine ⟨?_, fun other hother => hinbox other (List.mem_cons_of_mem _ hother), nofun⟩
      have hreply : ((machine party).action stage).reply (.message message : HandshakeInput)
          state.store = some (.message message, state.store) := by
        change (action party stage).reply _ _ = _
        rw [haction]
        rfl
      rw [step_resume hstatus hreply] at hstep
      cases hstep
      refine hkeeps.resume _ _ (Action.fits_of_reply hreply) ?_ hknown
      intro other hother
      cases hother
      exact hinbox message List.mem_cons_self
    · cases hturn
  · cases hturn

/-- What both sides know, and what is on its way between them. -/
structure Joint (senderKnows receiverKnows : StageStatus → Prop)
    (senderSays receiverSays : Message → Prop) (negotiation : Negotiation) : Prop where
  sender : senderKnows negotiation.sender.status
  receiver : receiverKnows negotiation.receiver.status
  toSender : ∀ message ∈ negotiation.toSender, receiverSays message
  toReceiver : ∀ message ∈ negotiation.toReceiver, senderSays message

theorem forall_mem_append {property : Message → Prop} {first second : List Message}
    (hfirst : ∀ message ∈ first, property message)
    (hsecond : ∀ message ∈ second, property message) :
    ∀ message ∈ first ++ second, property message := by
  intro message hmessage
  rcases List.mem_append.mp hmessage with hleft | hright
  · exact hfirst message hleft
  · exact hsecond message hright

theorem Joint.step (hsender : Maintains sender senderKnows receiverSays senderSays)
    (hreceiver : Maintains receiver receiverKnows senderSays receiverSays)
    {negotiation next : Negotiation} {event : Turn}
    (hjoint : Joint senderKnows receiverKnows senderSays receiverSays negotiation)
    (hstep : Configuration.step sender receiver negotiation event = some next) :
    Joint senderKnows receiverKnows senderSays receiverSays next := by
  cases event with
  | sender failure =>
      obtain ⟨⟨after, rest, sent⟩, hturn, rfl⟩ := Option.map_eq_some_iff.mp hstep
      obtain ⟨hknown, hrest, hsent⟩ := hsender.turn hturn hjoint.toSender hjoint.sender
      exact ⟨hknown, hjoint.receiver, hrest, forall_mem_append hjoint.toReceiver hsent⟩
  | receiver failure =>
      obtain ⟨⟨after, rest, sent⟩, hturn, rfl⟩ := Option.map_eq_some_iff.mp hstep
      obtain ⟨hknown, hrest, hsent⟩ := hreceiver.turn hturn hjoint.toReceiver hjoint.receiver
      exact ⟨hjoint.sender, hknown, forall_mem_append hjoint.toSender hsent, hrest⟩

/-- What both sides start with and their stages keep holds in every run. -/
theorem joint_of_run (hsender : Maintains sender senderKnows receiverSays senderSays)
    (hreceiver : Maintains receiver receiverKnows senderSays receiverSays)
    {initiates peerInitiates : Bool} (hstart : senderKnows (begin initiates).status)
    (hother : receiverKnows (begin peerInitiates).status) {turns : List Turn} {final : Negotiation}
    (hrun : run sender receiver (start initiates peerInitiates) turns = some final) :
    Joint senderKnows receiverKnows senderSays receiverSays final := by
  refine Foundation.Run.invariant_run (Joint senderKnows receiverKnows senderSays receiverSays)
    (fun _ _ _ hinv hstep => hinv.step hsender hreceiver hstep) ?_ hrun
  exact ⟨hstart, hother, nofun, nofun⟩

end Keeping

/-! ## Sessions -/

inductive Role where
  | client
  | server
  deriving DecidableEq, Repr

/-- How the two sides meet: with the sender in the given role, or through a rendezvous. -/
inductive Mode where
  | direct (senderRole : Role)
  | rendezvous
  deriving DecidableEq, Repr

def senderInitiates (mode : Mode) (sender receiver : Party) : Bool :=
  match mode with
  | .direct role => decide (role = .client)
  | .rendezvous => Uuid.lt sender.deviceId receiver.deviceId

def receiverInitiates (mode : Mode) (sender receiver : Party) : Bool :=
  match mode with
  | .direct role => decide (role = .server)
  | .rendezvous => Uuid.lt receiver.deviceId sender.deviceId

/-- A session: the handshake results of the sender and of the receiver.  The client of a
direct session reconnects with the configuration it has. -/
inductive Established (mode : Mode) (sender receiver : Party) :
    HandshakeResult → HandshakeResult → Prop where
  | opened {turns : List Turn} {final : Negotiation} {own peer : HandshakeResult}
      (hrun : run sender receiver (start (senderInitiates mode sender receiver)
        (receiverInitiates mode sender receiver)) turns = some final)
      (hown : final.sender.status = .returned own)
      (hpeer : final.receiver.status = .returned peer) : Established mode sender receiver own peer
  | reconnected {turns : List Turn} {final : Negotiation} {before beforePeer own peer : HandshakeResult}
      (hdirect : mode = .direct .client)
      (hbefore : Established mode sender receiver before beforePeer)
      (hrun : run { sender with config := before.config } receiver (start true false) turns =
        some final)
      (hown : final.sender.status = .returned own)
      (hpeer : final.receiver.status = .returned peer) : Established mode sender receiver own peer

/-- The configuration of the side that initiates. -/
def initiatorConfig (mode : Mode) (sender receiver : Party) : ConfigMessage :=
  if senderInitiates mode sender receiver then sender.config else receiver.config

/-! ## What is asked of a session -/

/-- The arguments of `send_path` and its surroundings. -/
structure Request where
  codec : Codec
  pathExists : Bool
  path : OsStr
  basePath : OsStr
  saved : SavedState
  freshId : Uuid
  newId : Uuid
  durationMs : Nat
  maxAttempts : Nat
  outputDir : OsStr
  source : Store

/-- The settings of `send_path` on a session with this handshake result. -/
def Request.settings (request : Request) (own : HandshakeResult) : Settings where
  codec := request.codec
  config := own.config
  basePath := request.basePath
  maxAttempts := request.maxAttempts

/-- The beginning of the call on a session with the given configuration. -/
def Request.load (request : Request) (config : ConfigMessage) :
    Except Error (Call × FolderTransferState) :=
  openCall request.pathExists request.path request.saved request.freshId request.newId
    request.durationMs config

/-- The settings of `receive_to` on the other side. -/
def Request.receiving (request : Request) (peer : HandshakeResult) : FolderReceiver.Session where
  codec := request.codec
  config := peer.config
  outputDir := request.outputDir

/-- Some run of the call gets to where the manifest is sent. -/
def Announces (settings : Settings) (source : Store) (call : Call) (memory : FolderTransferState) :
    Prop :=
  ∃ inputs again attempt point resumeFrom store,
    Foundation.Run.run (SendPath.pathStep settings) (startAttempt call 0 memory, source) inputs =
        some (.sending again attempt (.running point), store) ∧
      point.stage = .sendInfo resumeFrom

/-- A fresh send runs under the configuration the sending user asked for, and a loaded
state under the chunk size it was recorded with, unless nothing is announced. -/
structure Kept (sender : Party) (request : Request) (own peer : HandshakeResult) : Prop where
  fresh : (loadState request.saved request.freshId own.config).files = [] →
    own.config = sender.config ∧ peer.config = sender.config
  resumed : ∀ call memory, request.load own.config = .ok (call, memory) → memory.files ≠ [] →
    (((request.settings own).session call).config.chunkSize = memory.config.chunkSize ∧
        (request.receiving peer).config.chunkSize = memory.config.chunkSize) ∨
      ¬ Announces (request.settings own) request.source call memory

/-- The manifest a loaded state is announced with. -/
def loadedManifest (memory : FolderTransferState) : Message :=
  .transferInfo (memory.transferInfo memory.transferId (memory.resumePoint memory.transferId))

/-- The initiator's configuration is the one asked for, and its chunk size the recorded
one wherever a loaded state can be announced at all. -/
structure Agrees (mode : Mode) (sender receiver : Party) (request : Request) : Prop where
  fresh : (loadState request.saved request.freshId .default).files = [] →
    initiatorConfig mode sender receiver = sender.config
  resumed : ∀ memory, request.saved = .stored memory → memory.files ≠ [] →
    request.pathExists = true → writeMessage (loadedManifest memory) = .ok () →
    (initiatorConfig mode sender receiver).chunkSize = memory.config.chunkSize

/-! ## The configuration both sides end up with -/

variable {party sender receiver : Party} {initiates peerInitiates : Bool} {peerConfig : ConfigMessage}

/-- What a message shows about the side that sent it. -/
def Shows (initiates : Bool) (config : ConfigMessage) : Message → Prop
  | .hello _ => initiates = true
  | .config other => initiates = true ∧ other = config
  | .helloAck _ | .configAck => initiates = false
  | _ => False

/-- What a side knows about the two roles and the configuration. -/
def Knows (initiates peerInitiates : Bool) (config peerConfig : ConfigMessage) :
    StageStatus → Prop
  | .running .clientSendHello | .running .clientRecvHelloAck => initiates = true
  | .running (.clientSendConfig _) | .running (.clientRecvConfigAck _) =>
      initiates = true ∧ peerInitiates = false
  | .running .serverRecvHello => initiates = false
  | .running (.serverSendHelloAck _) | .running (.serverRecvConfig _) => initiates = false
  | .running (.serverSendConfigAck _ other) =>
      initiates = false ∧ peerInitiates = true ∧ other = peerConfig
  | .returned outcome =>
      initiates = true ∧ peerInitiates = false ∧ outcome.config = config ∨
        initiates = false ∧ peerInitiates = true ∧ outcome.config = peerConfig
  | .failed _ _ | .panicked _ _ => True

theorem knows_readHelloAck {message : Message} (hshows : Shows peerInitiates peerConfig message)
    (hinitiates : initiates = true) :
    Knows initiates peerInitiates party.config peerConfig (readHelloAck party message) := by
  unfold readHelloAck
  split
  · rename_i peer
    cases checkPeer party peer with
    | error error => trivial
    | ok done => exact ⟨hinitiates, hshows⟩
  · trivial
  · trivial

theorem knows_readHello {message : Message} (hinitiates : initiates = false) :
    Knows initiates peerInitiates party.config peerConfig (readHello party message) := by
  unfold readHello
  split
  · rename_i peer
    cases checkPeer party peer with
    | error error => trivial
    | ok done => exact hinitiates
  · trivial

theorem knows_readConfigAck {peer : HelloMessage} {message : Message}
    (hroles : initiates = true ∧ peerInitiates = false) :
    Knows initiates peerInitiates party.config peerConfig (readConfigAck party peer message) := by
  unfold readConfigAck
  split
  · exact Or.inl ⟨hroles.1, hroles.2, rfl⟩
  · trivial
  · trivial

theorem knows_readConfig {peer : HelloMessage} {message : Message}
    (hshows : Shows peerInitiates peerConfig message) (hinitiates : initiates = false) :
    Knows initiates peerInitiates party.config peerConfig (readConfig peer message) := by
  unfold readConfig
  split
  · exact ⟨hinitiates, hshows⟩
  · trivial

/-- What a side says and what it knows after it has been answered. -/
theorem knows_resume {stage : Stage} {reply : Reply Message Bool}
    (hfits : (action party stage).Fits reply)
    (hmessage : ∀ message, reply = .message message → Shows peerInitiates peerConfig message)
    (hknows : Knows initiates peerInitiates party.config peerConfig (.running stage)) :
    Knows initiates peerInitiates party.config peerConfig (resume party stage reply) := by
  cases stage <;> cases reply <;> try exact hfits.elim
  case clientSendHello.done => exact hknows
  case clientRecvHelloAck.message message => exact knows_readHelloAck (hmessage message rfl) hknows
  case clientSendConfig.done peer => exact hknows
  case clientRecvConfigAck.message peer message => exact knows_readConfigAck hknows
  case serverRecvHello.message message => exact knows_readHello hknows
  case serverSendHelloAck.done peer => exact hknows
  case serverRecvConfig.message peer message => exact knows_readConfig (hmessage message rfl) hknows
  case serverSendConfigAck.done peer config => exact Or.inr hknows

theorem shows_action {stage : Stage} {message : Message}
    (hsend : action party stage = .send message)
    (hknows : Knows initiates peerInitiates party.config peerConfig (.running stage)) :
    Shows initiates party.config message := by
  cases stage <;> cases hsend
  case clientSendHello => exact hknows
  case clientSendConfig peer => exact ⟨hknows.1, rfl⟩
  case serverSendHelloAck peer => exact hknows
  case serverSendConfigAck peer config => exact hknows.1

theorem maintains_knows : Maintains party
    (Knows initiates peerInitiates party.config peerConfig) (Shows peerInitiates peerConfig)
    (Shows initiates party.config) where
  resume := fun _ _ hfits hmessage hknows => knows_resume hfits hmessage hknows
  fail := fun _ _ _ => trivial
  send := fun _ _ hsend hknows => shows_action hsend hknows

/-- Both sides know their roles, and so do the messages between them. -/
structure Consistent (sender receiver : Party) (initiates peerInitiates : Bool)
    (negotiation : Negotiation) : Prop where
  knowsSender : Knows initiates peerInitiates sender.config receiver.config
    negotiation.sender.status
  knowsReceiver : Knows peerInitiates initiates receiver.config sender.config
    negotiation.receiver.status
  toSender : ∀ message ∈ negotiation.toSender, Shows peerInitiates receiver.config message
  toReceiver : ∀ message ∈ negotiation.toReceiver, Shows initiates sender.config message

theorem knows_begin (initiates peerInitiates : Bool) (config peerConfig : ConfigMessage) :
    Knows initiates peerInitiates config peerConfig (begin initiates).status := by
  cases initiates <;> rfl

theorem consistent_of_run {turns : List Turn} {final : Negotiation}
    (hrun : run sender receiver (start initiates peerInitiates) turns = some final) :
    Consistent sender receiver initiates peerInitiates final := by
  obtain ⟨hsender, hreceiver, htoSender, htoReceiver⟩ :=
    joint_of_run maintains_knows maintains_knows (knows_begin _ _ _ _) (knows_begin _ _ _ _) hrun
  exact ⟨hsender, hreceiver, htoSender, htoReceiver⟩

/-- Two results of one handshake carry the configuration of the side that initiated. -/
theorem config_of_run {turns : List Turn} {final : Negotiation} {own peer : HandshakeResult}
    (hrun : run sender receiver (start initiates peerInitiates) turns = some final)
    (hown : final.sender.status = .returned own) (hpeer : final.receiver.status = .returned peer) :
    own.config = (if initiates then sender.config else receiver.config) ∧
      peer.config = (if initiates then sender.config else receiver.config) := by
  obtain ⟨hsender, hreceiver, _, _⟩ := consistent_of_run hrun
  rw [hown] at hsender
  rw [hpeer] at hreceiver
  rcases hsender with ⟨hinitiates, hresponds, hconfig⟩ | ⟨hresponds, hinitiates, hconfig⟩
  · rcases hreceiver with ⟨hother, _, _⟩ | ⟨_, _, hother⟩
    · rw [hresponds] at hother
      cases hother
    · rw [if_pos hinitiates]
      exact ⟨hconfig, hother⟩
  · rcases hreceiver with ⟨_, _, hother⟩ | ⟨_, hboth, _⟩
    · rw [hresponds]
      exact ⟨hconfig, hother⟩
    · rw [hresponds] at hboth
      cases hboth

theorem config_of_established {mode : Mode} {own peer : HandshakeResult}
    (hsession : Established mode sender receiver own peer) :
    own.config = initiatorConfig mode sender receiver ∧
      peer.config = initiatorConfig mode sender receiver := by
  induction hsession with
  | opened hrun hown hpeer => exact config_of_run hrun hown hpeer
  | reconnected hdirect hbefore hrun hown hpeer ih =>
      obtain ⟨hconfig, hother⟩ := config_of_run hrun hown hpeer
      exact ⟨hconfig.trans ih.1, hother.trans ih.1⟩

/-! ## Whether a manifest is announced -/

variable {settings : Settings} {source : Store} {call : Call} {memory : FolderTransferState}

theorem openTransfer_loaded (hfiles : memory.files ≠ [])
    (htransfer : call.transferId = memory.transferId) :
    FolderSender.openTransfer (settings.session call) memory =
      .ofExcept ⟨memory, .begin⟩ (writeMessage (loadedManifest memory)) fun _ =>
        .running ⟨memory, .sendInfo (memory.resumePoint memory.transferId)⟩ := by
  have hsession : (settings.session call).transferId = memory.transferId := htransfer
  rw [FolderSender.openTransfer, if_neg hfiles, FolderSender.announce, FolderSender.manifest,
    hsession]
  rfl

theorem announces_of_fits (hfiles : memory.files ≠ [])
    (htransfer : call.transferId = memory.transferId)
    (hfits : writeMessage (loadedManifest memory) = .ok ()) :
    Announces settings source call memory := by
  refine ⟨[.attempt .proceed], call, 0,
    ⟨memory, .sendInfo (memory.resumePoint memory.transferId)⟩, _, source, ?_, rfl⟩
  have hopen := @openTransfer_loaded settings call memory hfiles htransfer
  rw [hfits] at hopen
  change some (Phase.sending call 0 (FolderSender.openTransfer (settings.session call) memory),
    source) = _
  rw [hopen]
  rfl

/-- The phases of a call whose manifest does not fit a frame. -/
def Refused (call : Call) (memory : FolderTransferState) : Phase → Prop
  | .sending again _ (.running point) =>
      again = call ∧ point.memory = memory ∧ point.stage = .begin
  | .sending _ _ (.failed point error) =>
      point.stage = .begin ∧ error.isRecoverable = false
  | .failed _ _ => True
  | _ => False

theorem refused_step (hfiles : memory.files ≠ []) (htransfer : call.transferId = memory.transferId)
    (hlarge : writeMessage (loadedManifest memory) ≠ .ok ()) {state next : Phase × Store}
    {input : PathInput} (hrefused : Refused call memory state.1)
    (hstep : SendPath.pathStep settings state input = some next) :
    Refused call memory next.1 := by
  obtain ⟨phase, store⟩ := state
  cases SendPath.pathStepped_of_step hstep with
  | again | returned => exact hrefused.elim
  | failed =>
      rename_i again attempt point error
      obtain ⟨memory', stage⟩ := point
      obtain ⟨rfl, herror⟩ := hrefused
      have hreturned : FolderSender.returnedError ⟨memory', .begin⟩ error = error := rfl
      simp only [afterFailure, hreturned, herror, Bool.false_eq_true, if_false]
      trivial
  | attempt hnext =>
      rename_i again attempt status input after
      cases status with
      | returned _ | panicked _ _ => exact hrefused.elim
      | failed _ _ => cases hnext
      | running point =>
          obtain ⟨memory', stage⟩ := point
          obtain ⟨rfl, rfl, rfl⟩ := hrefused
          cases input with
          | answer _ | message _ | stream _ | fail _ _ => cases hnext
          | proceed =>
              cases hnext
              have hopen := @openTransfer_loaded settings again memory' hfiles htransfer
              cases hwrite : writeMessage (loadedManifest memory') with
              | ok done => exact absurd hwrite hlarge
              | error error =>
                  rw [hwrite] at hopen
                  change Refused again memory' (.sending again attempt
                    (FolderSender.openTransfer (settings.session again) memory'))
                  rw [hopen]
                  refine ⟨rfl, ?_⟩
                  rw [writeMessage] at hwrite
                  split at hwrite <;> cases hwrite
                  rfl

theorem not_announces_of_large (hfiles : memory.files ≠ [])
    (htransfer : call.transferId = memory.transferId)
    (hlarge : writeMessage (loadedManifest memory) ≠ .ok ()) :
    ¬ Announces settings source call memory := by
  rintro ⟨inputs, again, attempt, point, resumeFrom, store, hrun, hstage⟩
  have hstart : Refused call memory (startAttempt call 0 memory) := ⟨rfl, rfl, rfl⟩
  have hfinal := Foundation.Run.invariant_run
    (fun state : Phase × Store => Refused call memory state.1)
    (fun _ _ _ hinv hstep => refused_step hfiles htransfer hlarge hinv hstep) hstart hrun
  obtain ⟨_, _, hbegin⟩ := hfinal
  rw [hbegin] at hstage
  cases hstage

/-! ## The exact condition -/

theorem loadState_files (saved : SavedState) (freshId : Uuid) (config other : ConfigMessage) :
    (loadState saved freshId config).files = (loadState saved freshId other).files := by
  cases saved <;> rfl

/-- A call that resumes found its state in the state file, and keeps its identifier. -/
theorem load_eq_ok_iff (request : Request) (config : ConfigMessage) (hfiles : memory.files ≠ []) :
    request.load config = .ok (call, memory) ↔
      request.pathExists = true ∧ request.saved = .stored memory ∧
        call = { transferId := memory.transferId, durationMs := request.durationMs } := by
  rw [Request.load, openCall]
  cases hexists : request.pathExists with
  | false =>
      rw [if_neg Bool.false_ne_true]
      constructor
      · intro hload
        cases hload
      · rintro ⟨hfalse, _⟩
        cases hfalse
  | true =>
      rw [if_pos rfl]
      cases hsaved : request.saved with
      | absent | unreadable =>
          constructor
          · intro hload
            cases hload
            exact absurd rfl hfiles
          · rintro ⟨_, hstored, _⟩
            cases hstored
      | stored loaded =>
          constructor
          · intro hload
            cases hload
            change loaded.files ≠ [] at hfiles
            refine ⟨rfl, rfl, ?_⟩
            dsimp only [loadState]
            rw [chooseTransferId, if_neg hfiles]
          · rintro ⟨_, hstored, rfl⟩
            cases hstored
            dsimp only [loadState]
            rw [chooseTransferId, if_neg hfiles]

/-- A session keeps the configuration and the chunk size it should exactly when the side
that initiates its handshake brings them. -/
theorem kept_iff_agrees (mode : Mode) (sender receiver : Party) (request : Request)
    (own peer : HandshakeResult) (hsession : Established mode sender receiver own peer) :
    Kept sender request own peer ↔ Agrees mode sender receiver request := by
  obtain ⟨hown, hpeer⟩ := config_of_established hsession
  have hfresh := loadState_files request.saved request.freshId own.config .default
  constructor
  · intro hkept
    constructor
    · intro hempty
      rw [← hown]
      exact (hkept.fresh (hfresh.trans hempty)).1
    · intro memory hsaved hfiles hexists hfits
      have hload := (load_eq_ok_iff request own.config hfiles).mpr ⟨hexists, hsaved, rfl⟩
      rcases hkept.resumed _ memory hload hfiles with ⟨hchunks, _⟩ | hsilent
      · rw [← hown]
        exact hchunks
      · exact absurd (announces_of_fits hfiles rfl hfits) hsilent
  · intro hagrees
    constructor
    · intro hempty
      have hinitiator := hagrees.fresh (hfresh.symm.trans hempty)
      exact ⟨hown.trans hinitiator, hpeer.trans hinitiator⟩
    · intro call memory hload hfiles
      obtain ⟨hexists, hsaved, rfl⟩ := (load_eq_ok_iff request own.config hfiles).mp hload
      by_cases hfits : writeMessage (loadedManifest memory) = .ok ()
      · refine Or.inl ⟨?_, ?_⟩
        · change own.config.chunkSize = _
          rw [hown]
          exact hagrees.resumed memory hsaved hfiles hexists hfits
        · change peer.config.chunkSize = _
          rw [hpeer]
          exact hagrees.resumed memory hsaved hfiles hexists hfits
      · exact Or.inr (not_announces_of_large hfiles rfl hfits)

/-- Two users with their own identities; the sender asks for chunks of 64 KiB. -/
def sendingSide (deviceId : UInt8) : Party where
  deviceId := FixedBytes.filled 16 deviceId
  fingerprint := FixedBytes.filled 32 1
  observed := some (FixedBytes.filled 32 2)
  config := { ConfigMessage.default with chunkSize := 65536 }

def receivingSide : Party where
  deviceId := FixedBytes.filled 16 5
  fingerprint := FixedBytes.filled 32 2
  observed := some (FixedBytes.filled 32 1)
  config := .default

/-- The whole handshake, the initiating side first. -/
def senderFirst : List Turn :=
  [.sender none, .receiver none, .receiver none, .sender none, .sender none, .receiver none,
    .receiver none, .sender none]

def receiverFirst : List Turn :=
  [.receiver none, .sender none, .sender none, .receiver none, .receiver none, .sender none,
    .sender none, .receiver none]

/-- A state of a broken-off send whose first chunk of 64 KiB was acknowledged. -/
def interrupted : FolderTransferState :=
  (FolderTransferState.new (FixedBytes.filled 16 9) [102]
    [{ path := [102], size := 100000, modified := 0, checksum := FixedBytes.filled 32 0 }]
    (sendingSide 0).config).markChunkComplete 0 0

def resumeRequest : Request where
  codec := .stored fun _ => FixedBytes.filled 32 0
  pathExists := true
  path := [102]
  basePath := []
  saved := .stored interrupted
  freshId := FixedBytes.filled 16 7
  newId := FixedBytes.filled 16 8
  durationMs := 0
  maxAttempts := 5
  outputDir := [111]
  source := fun _ => none

theorem kept_iff_agrees_direct :
    Kept (sendingSide 9) resumeRequest (result (hello receivingSide) (sendingSide 9).config)
      (result (hello (sendingSide 9)) (sendingSide 9).config) := by
  refine (kept_iff_agrees (.direct .client) (sendingSide 9) receivingSide resumeRequest _ _
    (@Established.opened _ _ _ senderFirst _ _ _ rfl rfl rfl)).mpr ⟨nofun, ?_⟩
  intro memory hsaved _ _ _
  cases hsaved
  rfl

/-- Through a rendezvous the receiver with the smaller identifier brings its default
chunk size, and the recorded chunk of 64 KiB is announced under it. -/
theorem larger_identifier_resumes_under_other_chunk_size :
    ¬ ∀ mode sender receiver request own peer, Established mode sender receiver own peer →
      Kept sender request own peer := by
  intro hclaim
  have hkept := hclaim .rendezvous (sendingSide 9) receivingSide resumeRequest
    (result (hello receivingSide) .default) (result (hello (sendingSide 9)) .default)
    (@Established.opened _ _ _ receiverFirst _ _ _ rfl rfl rfl)
  rcases hkept.resumed _ interrupted rfl nofun with ⟨hchunks, _⟩ | hsilent
  · exact absurd hchunks (by decide)
  · refine hsilent ⟨[.attempt .proceed], _, _, _, _, _, rfl, rfl⟩

end P2PFileTransfer.Session.Configuration
