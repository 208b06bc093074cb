import P2PFileTransfer.Core.FolderReceiver
import P2PFileTransfer.Foundation.Blocks
import P2PFileTransfer.Foundation.Hex
import P2PFileTransfer.Foundation.Run
import P2PFileTransfer.Gui.HandleMessage
import P2PFileTransfer.Session.Lifecycle
import P2PFileTransfer.Session.ReceiveLoop

/-!
# The program around the window

The user does what the view offers in the state at hand; the view is drawn anew after every
message.  Work in the background goes on by itself, next to the window and next to other
work, and its message is handled some time after it ends.  The two share the flag that
cancels the listener and the sessions.
-/

namespace P2PFileTransfer.Gui.App

open P2PFileTransfer.Foundation.ByteFile
open P2PFileTransfer.Foundation.FixedWidth
open P2PFileTransfer.Foundation.UnixPath
open P2PFileTransfer.Foundation.Utf8 (Text utf8Len)
open P2PFileTransfer.Core.Protocol (Digest Error Fingerprint Uuid)
open P2PFileTransfer.Core.FolderReceiver (TransferSummary)
open P2PFileTransfer.Session.Handshake (HandshakeInput)
open P2PFileTransfer.Session.Rendezvous (SocketAddr Local P2PSession Outbound Inbound)
open P2PFileTransfer.Session.Lifecycle (connect accept)
open P2PFileTransfer.Gui.HandleMessage

/-! ## What the view offers -/

def viewConnectionTab (state : AppState) : Message → Bool
  | .modeSelected _ => true
  | .portChanged _ => decide (state.connectionState.mode ≠ .rendezvous)
  | .peerAddressChanged _ | .peerFingerprintChanged _ | .discoveryToggled _ =>
      decide (state.connectionState.mode = .connect)
  | .rendezvousAddressChanged _ | .codeChanged _ | .generateCode =>
      decide (state.connectionState.mode = .rendezvous)
  | .startConnection => !state.connectionState.isActive
  | .stopConnection => state.connectionState.isActive
  | _ => false

def viewSendTab (state : AppState) : Message → Bool
  | .pathInputChanged _ | .browseFile | .browseFolder => true
  | .startSend => decide (state.transferProgress = none ∧ state.sendState.pathInput ≠ [])
  | _ => false

def viewReceiveTab : Message → Bool
  | .outputDirChanged _ | .browseOutputDir | .openOutputDir | .autoAcceptToggled _ => true
  | _ => false

/-- A number that cannot be read leaves the setting as it is. -/
def viewSettingsTab : Message → Bool
  | .compressionLevelChanged level => decide (-7 ≤ level ∧ level ≤ 22)
  | .compressionToggled _ | .chunkSizeChanged _ | .bandwidthLimitChanged _
  | .maxRetriesChanged _ => true
  | _ => false

def viewTab (state : AppState) : Tab → Message → Bool
  | .connection => viewConnectionTab state
  | .send => viewSendTab state
  | .receive => viewReceiveTab
  | .settings => viewSettingsTab
  | .history => fun _ => false

/-- The row of tabs and the console are always there. -/
def view (state : AppState) : Message → Bool
  | .tabSelected _ | .consoleAction => true
  | message => viewTab state state.currentTab message

/-! ## Work in the background -/

/-- The parsers of the standard library. -/
structure AddrParser where
  socketAddr : Text → Option SocketAddr
  ipAddr : Text → Option Bytes

/-- What stays the same as long as the program runs. -/
structure Setup where
  build : Build
  toLowercase : Text → Text
  sha256 : Bytes → Digest
  identity : Fingerprint
  addresses : AddrParser

def parsePeerAddr (addresses : AddrParser) (text : Text) (port : Nat) : Option SocketAddr :=
  match addresses.socketAddr text with
  | some address => some address
  | none => (addresses.ipAddr text).map fun ip => ⟨ip, port⟩

def parseFingerprint (text : Text) : Option Fingerprint :=
  if utf8Len text ≠ 64 then none
  else
    match Foundation.Hex.decode text with
    | none => none
    | some bytes => if hlength : bytes.length = 32 then some ⟨bytes, hlength⟩ else none

/-- Whom `connect_to_peer` dials; discovery counts only where no address was typed. -/
def peerTarget (addresses : AddrParser) (request : ConnectRequest)
    (discovered : Option (SocketAddr × Fingerprint)) : Option (SocketAddr × Fingerprint) :=
  if request.address ≠ [] then
    match parseFingerprint request.peerFpHex,
      parsePeerAddr addresses request.address request.port with
    | some fingerprint, some address => some (address, fingerprint)
    | _, _ => none
  else if request.useDiscovery then discovered
  else none

/-- A listener looks at the flag before every caller and while it waits for one, not while
it receives. -/
inductive ListenerStage where
  | checking
  | accepting
  | receiving (session : P2PSession)

/-- The message of work that has ended waits for its turn. -/
inductive Task where
  | pickingPath
  | pickingOutputDir
  | listening (request : ListenRequest) (stage : ListenerStage)
  | pairing (request : PairRequest)
  | connecting (request : ConnectRequest)
  | sending (request : SendRequest)
  | finished (command : Command) (message : Message)

def spawn : Command → List Task
  | .none => []
  | .pickPath => [.pickingPath]
  | .pickOutputDir => [.pickingOutputDir]
  | .listen request => [.listening request .checking]
  | .pair request => [.pairing request]
  | .connect request => [.connecting request]
  | .send request => [.sending request]

/-- A session, with the request it was made on. -/
structure Established where
  request : Command
  session : P2PSession

structure World where
  app : AppState
  established : List Established
  tasks : List Task

def World.opened (deviceId : Uuid) : World := ⟨.new deviceId, [], []⟩

/-- What a piece of work meets next.  Whatever else goes wrong before there is a session
counts as a failure. -/
inductive Move where
  | pick (path : Option OsStr)
  | fail
  | look
  | accepted (caller : Inbound) (inputs : List HandshakeInput)
  | received (result : Except Error TransferSummary)
  | paired (events : List Session.Rendezvous.Event)
  | dialled (discovered : Option (SocketAddr × Fingerprint)) (dial : Outbound)
      (inputs : List HandshakeInput)
  | reconnected (dial : Outbound) (inputs : List HandshakeInput)
  | sent (result : Except Error Nat)

/-- One turn of a listener, given the flag. -/
def advanceListener (setup : Setup) (cancelled : Bool) (request : ListenRequest) :
    ListenerStage → Move → Option Task
  | .checking, .look =>
      if cancelled then some (.finished (.listen request) .connectionEstablished)
      else some (.listening request .accepting)
  | .accepting, .look =>
      if cancelled then some (.finished (.listen request) .connectionFailed) else none
  | .accepting, .fail => some (.finished (.listen request) .connectionFailed)
  | .accepting, .accepted caller inputs =>
      (accept setup.sha256 setup.identity request.deviceId caller inputs).map fun
        | .ok session => .listening request (.receiving session)
        | .error _ => .finished (.listen request) .connectionFailed
  | .receiving session, .received result =>
      match result with
      | .ok _ => some (.listening request (.receiving session))
      | .error error =>
          if Session.ReceiveLoop.isDisconnect error then some (.listening request .checking)
          else some (.finished (.listen request) .connectionFailed)
  | _, _ => none

/-- A session that was made is kept, and its message points to it. -/
def establish (established : List Established) (command : Command) :
    Option P2PSession → List Established × Task
  | some session =>
      (established ++ [⟨command, session⟩],
        .finished command (.connectionEstablishedWithSession established.length))
  | none => (established, .finished command .connectionFailed)

def pairViaRendezvous (setup : Setup) (request : PairRequest)
    (events : List Session.Rendezvous.Event) : Option (Option P2PSession) :=
  let self : Local := ⟨request.deviceId, setup.identity, request.config⟩
  (Session.Rendezvous.run setup.sha256 self .register events).bind fun
    | .ready session => some (some session)
    | .failed _ => some none
    | _ => none

def connectToPeer (setup : Setup) (request : ConnectRequest)
    (discovered : Option (SocketAddr × Fingerprint)) (dial : Outbound)
    (inputs : List HandshakeInput) : Option (Option P2PSession) :=
  match peerTarget setup.addresses request discovered with
  | none => some none
  | some (peerAddr, peerFp) =>
      let self : Local := ⟨request.deviceId, setup.identity, request.config⟩
      (connect setup.sha256 self peerAddr peerFp dial inputs).map Except.toOption

/-- A reconnect of `send_path`, on the session behind the pointer. -/
def reconnect (setup : Setup) (established : List Established) (session : Nat) (dial : Outbound)
    (inputs : List HandshakeInput) : Option (List Established) :=
  established[session]?.bind fun made =>
    (Session.Lifecycle.step setup.sha256 setup.identity made.session (.reconnect dial inputs)).map
      fun next => established.set session { made with session := next }

def sendMessage : Except Error Nat → Message
  | .ok bytes => .sendComplete bytes
  | .error error => .sendFailed error

/-- One turn of a piece of work: the sessions and the work after it. -/
def advance (setup : Setup) (cancelled : Bool) (established : List Established) :
    Task → Move → Option (List Established × Task)
  | .pickingPath, .pick path => some (established, .finished .pickPath (.pathSelected path))
  | .pickingOutputDir, .pick dir =>
      some (established, .finished .pickOutputDir (.outputDirSelected dir))
  | .listening request stage, move =>
      (advanceListener setup cancelled request stage move).map fun task => (established, task)
  | .pairing request, .fail => some (establish established (.pair request) none)
  | .pairing request, .paired events =>
      (pairViaRendezvous setup request events).map (establish established (.pair request))
  | .connecting request, .fail => some (establish established (.connect request) none)
  | .connecting request, .dialled discovered dial inputs =>
      (connectToPeer setup request discovered dial inputs).map
        (establish established (.connect request))
  | .sending request, .reconnected dial inputs =>
      (reconnect setup established request.session dial inputs).map fun established =>
        (established, .sending request)
  | .sending request, .sent result =>
      some (established, .finished (.send request) (sendMessage result))
  | _, _ => none

/-! ## Runs -/

inductive Program where
  | running (world : World)
  | panicked (panic : Panic)

inductive Event where
  | user (message : Message) (given : Surroundings)
  | deliver (index : Nat) (given : Surroundings)
  | work (index : Nat) (move : Move)

/-- Handle a message, next to the work that goes on. -/
def World.handle (setup : Setup) (world : World) (given : Surroundings) (message : Message)
    (tasks : List Task) : Program :=
  match handleMessage setup.build setup.toLowercase given world.app message with
  | .ok (app, command) => .running ⟨app, world.established, tasks ++ spawn command⟩
  | .error panic => .panicked panic

def World.step (setup : Setup) (world : World) : Event → Option Program
  | .user message given =>
      if view world.app message then some (world.handle setup given message world.tasks) else none
  | .deliver index given =>
      match world.tasks[index]? with
      | some (.finished _ message) =>
          some (world.handle setup given message (world.tasks.eraseIdx index))
      | _ => none
  | .work index move =>
      world.tasks[index]?.bind fun task =>
        (advance setup world.app.cancelListener world.established task move).map
          fun (established, after) =>
            .running ⟨world.app, established, world.tasks.set index after⟩

def step (setup : Setup) : Program → Event → Option Program
  | .running world, event => world.step setup event
  | .panicked _, _ => none

abbrev run (setup : Setup) : Program → List Event → Option Program :=
  Foundation.Run.run (step setup)

def opened (deviceId : Uuid) : Program := .running (.opened deviceId)

/-! ## One turn of the work -/

/-- The command that a piece of work was started by. -/
def Task.command : Task → Command
  | .pickingPath => .pickPath
  | .pickingOutputDir => .pickOutputDir
  | .listening request _ => .listen request
  | .pairing request => .pair request
  | .connecting request => .connect request
  | .sending request => .send request
  | .finished command _ => command

/-- The messages in which the work of a command can end. -/
inductive Answers : Command → Message → Prop where
  | path {path : Option OsStr} : Answers .pickPath (.pathSelected path)
  | outputDir {dir : Option OsStr} : Answers .pickOutputDir (.outputDirSelected dir)
  | stopped {request : ListenRequest} : Answers (.listen request) .connectionEstablished
  | failed {command : Command} (hconnects : command.connects = true) :
      Answers command .connectionFailed
  | session {command : Command} {session : Nat} (hconnects : command.connects = true) :
      Answers command (.connectionEstablishedWithSession session)
  | sent {request : SendRequest} {result : Except Error Nat} :
      Answers (.send request) (sendMessage result)

theorem reports_of_answers {command : Command} {message : Message}
    (hanswers : Answers command message) : message.reports = true := by
  cases hanswers with
  | path | outputDir | stopped | failed _ | session _ => rfl
  | @sent _ result => cases result <;> rfl

/-- The view leaves these messages to the work. -/
theorem reports_of_view {state : AppState} {message : Message}
    (hoffered : view state message = true) : message.reports = false := by
  have hnone {tab : Tab} (hview : viewTab state tab message = true) : message.reports = false := by
    cases message with
    | connectionEstablished | connectionEstablishedWithSession _ | connectionFailed
    | pathSelected _ | sendComplete _ | sendFailed _ | outputDirSelected _ =>
        cases tab <;> cases hview
    | _ => rfl
  cases message with
  | tabSelected _ | consoleAction => rfl
  | _ => exact hnone hoffered

def Task.Answered : Task → Prop
  | .finished command message => Answers command message
  | _ => True

variable {setup : Setup} {cancelled : Bool} {established kept : List Established}
  {task later : Task} {move : Move}

/-- A caller is taken. -/
def Move.takes : Move → Bool
  | .accepted _ _ => true
  | _ => false

/-- A listener goes on, or ends. -/
inductive ListenerAdvanced (setup : Setup) (cancelled : Bool) (request : ListenRequest) :
    ListenerStage → Move → Task → Prop where
  | noticed (hcancelled : cancelled = true) :
      ListenerAdvanced setup cancelled request .checking .look
        (.finished (.listen request) .connectionEstablished)
  | waits (hcancelled : cancelled = false) :
      ListenerAdvanced setup cancelled request .checking .look (.listening request .accepting)
  | ended {stage : ListenerStage} {move : Move} (hstage : move.takes = true → stage = .accepting) :
      ListenerAdvanced setup cancelled request stage move
        (.finished (.listen request) .connectionFailed)
  | accepted {caller : Inbound} {inputs : List HandshakeInput} {session : P2PSession}
      (haccept : accept setup.sha256 setup.identity request.deviceId caller inputs =
        some (.ok session)) :
      ListenerAdvanced setup cancelled request .accepting (.accepted caller inputs)
        (.listening request (.receiving session))
  | received {session : P2PSession} {summary : TransferSummary} :
      ListenerAdvanced setup cancelled request (.receiving session) (.received (.ok summary))
        (.listening request (.receiving session))
  | left {session : P2PSession} {error : Error} :
      ListenerAdvanced setup cancelled request (.receiving session) (.received (.error error))
        (.listening request .checking)

theorem listenerAdvanced_of_eq {request : ListenRequest} {stage : ListenerStage}
    (hturn : advanceListener setup cancelled request stage move = some later) :
    ListenerAdvanced setup cancelled request stage move later := by
  unfold advanceListener at hturn
  split at hturn
  · split at hturn
    · rename_i hcancelled
      cases hturn
      exact .noticed hcancelled
    · rename_i hcancelled
      cases hturn
      exact .waits (Bool.eq_false_of_not_eq_true hcancelled)
  · split at hturn
    · cases hturn
      exact .ended fun _ => rfl
    · cases hturn
  · cases hturn
    exact .ended fun _ => rfl
  · obtain ⟨outcome, haccept, rfl⟩ := Option.map_eq_some_iff.mp hturn
    cases outcome with
    | ok session => exact .accepted haccept
    | error error => exact .ended fun _ => rfl
  · split at hturn
    · cases hturn
      exact .received
    · split at hturn
      · cases hturn
        exact .left
      · cases hturn
        refine .ended fun htakes => ?_
        cases htakes
  · cases hturn

/-- What a turn does to the work and to the sessions. -/
inductive Advanced (setup : Setup) (cancelled : Bool) (established : List Established) :
    Task → Move → List Established → Task → Prop where
  | picked {path : Option OsStr} :
      Advanced setup cancelled established .pickingPath (.pick path) established
        (.finished .pickPath (.pathSelected path))
  | pickedOutputDir {dir : Option OsStr} :
      Advanced setup cancelled established .pickingOutputDir (.pick dir) established
        (.finished .pickOutputDir (.outputDirSelected dir))
  | listened {request : ListenRequest} {stage : ListenerStage} {move : Move} {later : Task}
      (hturn : ListenerAdvanced setup cancelled request stage move later) :
      Advanced setup cancelled established (.listening request stage) move established later
  | unpaired {request : PairRequest} {move : Move} (htakes : move.takes = false) :
      Advanced setup cancelled established (.pairing request) move established
        (.finished (.pair request) .connectionFailed)
  | unconnected {request : ConnectRequest} {move : Move} (htakes : move.takes = false) :
      Advanced setup cancelled established (.connecting request) move established
        (.finished (.connect request) .connectionFailed)
  | paired {request : PairRequest} {events : List Session.Rendezvous.Event} {session : P2PSession}
      (hready : Session.Rendezvous.run setup.sha256
        ⟨request.deviceId, setup.identity, request.config⟩ .register events =
          some (.ready session)) :
      Advanced setup cancelled established (.pairing request) (.paired events)
        (established ++ [⟨.pair request, session⟩])
        (.finished (.pair request) (.connectionEstablishedWithSession established.length))
  | dialled {request : ConnectRequest} {discovered : Option (SocketAddr × Fingerprint)}
      {peerAddr : SocketAddr} {peerFp : Fingerprint} {dial : Outbound}
      {inputs : List HandshakeInput} {session : P2PSession}
      (htarget : peerTarget setup.addresses request discovered = some (peerAddr, peerFp))
      (hconnect : connect setup.sha256 ⟨request.deviceId, setup.identity, request.config⟩ peerAddr
        peerFp dial inputs = some (.ok session)) :
      Advanced setup cancelled established (.connecting request) (.dialled discovered dial inputs)
        (established ++ [⟨.connect request, session⟩])
        (.finished (.connect request) (.connectionEstablishedWithSession established.length))
  | reconnected {request : SendRequest} {made : Established} {session : P2PSession}
      {dial : Outbound} {inputs : List HandshakeInput}
      (hmade : established[request.session]? = some made)
      (hstep : Session.Lifecycle.step setup.sha256 setup.identity made.session
        (.reconnect dial inputs) = some session) :
      Advanced setup cancelled established (.sending request) (.reconnected dial inputs)
        (established.set request.session { made with session := session }) (.sending request)
  | sent {request : SendRequest} {result : Except Error Nat} :
      Advanced setup cancelled established (.sending request) (.sent result) established
        (.finished (.send request) (sendMessage result))

theorem advanced_of_eq
    (hadvance : advance setup cancelled established task move = some (kept, later)) :
    Advanced setup cancelled established task move kept later := by
  unfold advance at hadvance
  split at hadvance
  · cases hadvance
    exact .picked
  · cases hadvance
    exact .pickedOutputDir
  · obtain ⟨task, hturn, hresult⟩ := Option.map_eq_some_iff.mp hadvance
    cases hresult
    exact .listened (listenerAdvanced_of_eq hturn)
  · cases hadvance
    exact .unpaired rfl
  · obtain ⟨outcome, hpair, hresult⟩ := Option.map_eq_some_iff.mp hadvance
    obtain ⟨phase, hrun, hphase⟩ := Option.bind_eq_some_iff.mp hpair
    split at hphase
    · cases hphase
      cases hresult
      exact .paired hrun
    · cases hphase
      cases hresult
      exact .unpaired rfl
    · cases hphase
  · cases hadvance
    exact .unconnected rfl
  · obtain ⟨outcome, hpeer, hresult⟩ := Option.map_eq_some_iff.mp hadvance
    unfold connectToPeer at hpeer
    split at hpeer
    · cases hpeer
      cases hresult
      exact .unconnected rfl
    · rename_i peerAddr peerFp htarget
      obtain ⟨reached, hconnect, hreached⟩ := Option.map_eq_some_iff.mp hpeer
      cases reached with
      | ok session =>
          cases hreached
          cases hresult
          exact .dialled htarget hconnect
      | error error =>
          cases hreached
          cases hresult
          exact .unconnected rfl
  · obtain ⟨sessions, hreconnect, hresult⟩ := Option.map_eq_some_iff.mp hadvance
    obtain ⟨made, hmade, hsession⟩ := Option.bind_eq_some_iff.mp hreconnect
    obtain ⟨session, hstep, hset⟩ := Option.map_eq_some_iff.mp hsession
    cases hresult
    cases hset
    exact .reconnected hmade hstep
  · cases hadvance
    exact .sent
  · cases hadvance

/-- Work stays the work of its command. -/
theorem Advanced.command_eq
    (hadvanced : Advanced setup cancelled established task move kept later) :
    later.command = task.command := by
  cases hadvanced with
  | listened hturn => cases hturn <;> rfl
  | picked | pickedOutputDir | unpaired _ | unconnected _ | paired _ | dialled _ _ | reconnected _ _
  | sent => rfl

theorem Advanced.answered (hadvanced : Advanced setup cancelled established task move kept later) :
    later.Answered := by
  cases hadvanced with
  | picked => exact .path
  | pickedOutputDir => exact .outputDir
  | listened hturn =>
      cases hturn with
      | noticed _ => exact .stopped
      | ended _ => exact .failed rfl
      | waits _ | accepted _ | received | left => trivial
  | unpaired _ | unconnected _ => exact .failed rfl
  | paired _ => exact .session rfl
  | dialled _ _ => exact .session rfl
  | reconnected _ _ => trivial
  | sent => exact .sent

/-! ## One step -/

variable {world : World} {event : Event} {next : Program}

/-- What a step finds and what it leaves. -/
inductive Stepped (setup : Setup) (world : World) : Event → Program → Prop where
  | user {message : Message} {given : Surroundings} (hoffered : view world.app message = true) :
      Stepped setup world (.user message given) (world.handle setup given message world.tasks)
  | delivered {index : Nat} {given : Surroundings} {command : Command} {message : Message}
      {before after : List Task}
      (hfound : world.tasks[index]? = some (.finished command message))
      (htasks : world.tasks = before ++ .finished command message :: after) :
      Stepped setup world (.deliver index given)
        (world.handle setup given message (before ++ after))
  | worked {index : Nat} {move : Move} {task later : Task} {kept : List Established}
      {before after : List Task} (hfound : world.tasks[index]? = some task)
      (htasks : world.tasks = before ++ task :: after)
      (hadvanced : Advanced setup world.app.cancelListener world.established task move kept later) :
      Stepped setup world (.work index move)
        (.running ⟨world.app, kept, before ++ later :: after⟩)

theorem stepped_of_step (hstep : step setup (.running world) event = some next) :
    Stepped setup world event next := by
  cases event with
  | user message given =>
      change (if view world.app message then _ else none) = _ at hstep
      split at hstep
      · rename_i hoffered
        cases hstep
        exact .user hoffered
      · cases hstep
  | deliver index given =>
      change (match world.tasks[index]? with | some (.finished _ message) => _ | _ => none) = _
        at hstep
      split at hstep
      · rename_i command message hfound
        cases hstep
        obtain ⟨before, after, htasks, herase, _⟩ := Foundation.Blocks.exists_around hfound
        rw [herase]
        exact .delivered hfound htasks
      · cases hstep
  | work index move =>
      obtain ⟨task, hfound, hmoved⟩ := Option.bind_eq_some_iff.mp hstep
      obtain ⟨⟨kept, later⟩, hadvance, rfl⟩ := Option.map_eq_some_iff.mp hmoved
      obtain ⟨before, after, htasks, _, hset⟩ := Foundation.Blocks.exists_around hfound
      dsimp only
      rw [hset]
      exact .worked hfound htasks (advanced_of_eq hadvance)

/-- Work that has ended carries a message of its command. -/
def Answering (world : World) : Prop := ∀ task ∈ world.tasks, task.Answered

theorem answered_of_mem_spawn {command : Command} {task : Task} (hmem : task ∈ spawn command) :
    task.Answered := by
  cases command with
  | none => cases hmem
  | pickPath | pickOutputDir | listen _ | pair _ | connect _ | send _ =>
      rw [List.mem_singleton.mp hmem]
      trivial

theorem exists_of_handle {given : Surroundings} {message : Message} {tasks : List Task}
    {after : World} (hhandle : world.handle setup given message tasks = .running after) :
    ∃ app command, handleMessage setup.build setup.toLowercase given world.app message =
        .ok (app, command) ∧
      after = ⟨app, world.established, tasks ++ spawn command⟩ := by
  unfold World.handle at hhandle
  split at hhandle
  · rename_i app command hhandled
    cases hhandle
    exact ⟨app, command, hhandled, rfl⟩
  · cases hhandle

theorem answering_handle {given : Surroundings} {message : Message} {tasks : List Task}
    {after : World} (htasks : ∀ task ∈ tasks, task.Answered)
    (hhandle : world.handle setup given message tasks = .running after) : Answering after := by
  obtain ⟨app, command, _, rfl⟩ := exists_of_handle hhandle
  intro task hmem
  rcases List.mem_append.mp hmem with hold | hnew
  · exact htasks task hold
  · exact answered_of_mem_spawn hnew

theorem Answering.step {after : World} (hanswering : Answering world)
    (hstep : step setup (.running world) event = some (.running after)) : Answering after := by
  generalize hnext : Program.running after = next at hstep
  cases stepped_of_step hstep with
  | user _ => exact answering_handle hanswering hnext.symm
  | delivered _ htasks =>
      refine answering_handle (fun task hmem => hanswering task ?_) hnext.symm
      rw [htasks]
      rcases List.mem_append.mp hmem with hbefore | hafter
      · exact List.mem_append_left _ hbefore
      · exact List.mem_append_right _ (List.mem_cons_of_mem _ hafter)
  | worked _ htasks hadvanced =>
      cases hnext
      intro task hmem
      rcases List.mem_append.mp hmem with hbefore | hrest
      · exact hanswering task (htasks ▸ List.mem_append_left _ hbefore)
      · rcases List.mem_cons.mp hrest with rfl | hafter
        · exact hadvanced.answered
        · exact hanswering task (htasks ▸ List.mem_append_right _ (List.mem_cons_of_mem _ hafter))

theorem answering_of_run {deviceId : Uuid} {events : List Event}
    (hrun : run setup (opened deviceId) events = some (.running world)) : Answering world := by
  have hanswering := Foundation.Run.invariant_run
    (fun program => ∀ world, program = .running world → Answering world) ?_ ?_ hrun
  · exact hanswering world rfl
  · rintro (world | panic) event _ hkept hstep after rfl
    · exact (hkept world rfl).step hstep
    · cases hstep
  · rintro _ ⟨⟩ _ hmem
    exact absurd hmem List.not_mem_nil

/-! ## A peer is dialled and sent a file -/

def ownDevice : Uuid := Core.Protocol.FixedBytes.filled 16 2

/-- Every address is that of the one peer. -/
def dialling : Setup where
  build := .checked
  toLowercase := id
  sha256 := Session.Pinning.padded
  identity := Session.Pinning.padded [2]
  addresses := ⟨fun _ => some Session.Lifecycle.home.peerAddr, fun _ => none⟩

def onDisk : Surroundings where
  pathExists := fun _ => true
  code := []
  transferId := Core.Protocol.FixedBytes.filled 16 7
  now := 100

def dialAndSend : List Event :=
  [.user (.modeSelected .connect) onDisk, .user (.peerAddressChanged ['h']) onDisk,
    .user (.peerFingerprintChanged
      (Foundation.Hex.encode Session.Lifecycle.home.peerFingerprint.val)) onDisk,
    .user .startConnection onDisk,
    .work 0 (.dialled none (.presented ⟨[1], []⟩)
      (Session.Pinning.peerScript true Session.Lifecycle.home.peerFingerprint)),
    .deliver 0 onDisk, .user (.tabSelected .send) onDisk, .user (.pathInputChanged [97]) onDisk,
    .user .startSend onDisk, .work 0 (.sent (.ok 3)), .deliver 0 onDisk]

end P2PFileTransfer.Gui.App
