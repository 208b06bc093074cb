import P2PFileTransfer.Core.ParseBandwidth
import P2PFileTransfer.Foundation.FixedWidth
import P2PFileTransfer.Foundation.LossyText
import P2PFileTransfer.Session.Records

/-!
# Messages of the window

The window keeps one state and handles one message after the other.  Handling a message
changes the state and may start work that goes on in the background and ends in a message
of its own.  The console, which only shows what was done, is left out.
-/

namespace P2PFileTransfer.Gui.HandleMessage

open P2PFileTransfer.Foundation.FixedWidth
open P2PFileTransfer.Foundation.UnixPath
open P2PFileTransfer.Foundation.NumberText (parseU64)
open P2PFileTransfer.Foundation.TextSearch (trim)
open P2PFileTransfer.Foundation.Utf8 (Text)
open P2PFileTransfer.Core.Protocol (ConfigMessage Error Uuid defaultChunkSize)
open P2PFileTransfer.Session.Records

/-! ## The state -/

inductive Tab where
  | connection
  | send
  | receive
  | settings
  | history
  deriving DecidableEq, Repr

inductive ConnectionMode where
  | listen
  | connect
  | rendezvous
  deriving DecidableEq, Repr

/-- The status line. -/
inductive StatusMessage where
  | idle
  | listening
  | pairing
  | connecting
  | connected
  deriving DecidableEq, Repr

def StatusMessage.text : StatusMessage → String
  | .idle => "Idle"
  | .listening => "Listening"
  | .pairing => "Pairing..."
  | .connecting => "Connecting..."
  | .connected => "Connected"

structure ConnectionState where
  mode : ConnectionMode
  peerAddress : Text
  peerFingerprint : Text
  port : Text
  deviceId : Option Uuid
  useDiscovery : Bool
  rendezvousAddress : Text
  code : Text
  statusMessage : StatusMessage
  isActive : Bool
  deriving DecidableEq, Repr

/-- A typed path is its UTF-8 bytes. -/
structure SendState where
  selectedPath : Option OsStr
  pathInput : OsStr
  deriving DecidableEq, Repr

structure ReceiveState where
  outputDir : OsStr
  outputInput : OsStr
  autoAccept : Bool
  deriving DecidableEq, Repr

structure AppSettings where
  compressionEnabled : Bool
  compressionLevel : Int
  adaptiveCompression : Bool
  chunkSizeKb : UInt32
  bandwidthLimit : UInt64
  maxRetries : UInt32
  bandwidthInput : Text
  deriving DecidableEq, Repr

def AppSettings.default : AppSettings where
  compressionEnabled := true
  compressionLevel := 3
  adaptiveCompression := true
  chunkSizeKb := defaultChunkSize / 1024
  bandwidthLimit := 0
  maxRetries := 5
  bandwidthInput := Core.ParseBandwidth.unlimited

/-- The chunk size is a product of 32 bits. -/
def AppSettings.toConfigMessage (build : Build) (settings : AppSettings) : Checked ConfigMessage :=
  (build.keep 32 (settings.chunkSizeKb.toNat * 1024)).map fun chunkSize =>
    { compressionEnabled := settings.compressionEnabled
      compressionLevel := settings.compressionLevel
      adaptiveCompression := settings.adaptiveCompression
      chunkSize := UInt32.ofNat chunkSize
      bandwidthLimit := settings.bandwidthLimit }

structure TransferProgress where
  name : OsStr
  isSending : Bool
  deriving DecidableEq, Repr

/-- A session stands for the pointer to it; `cancelListener` is shared with every listener. -/
structure AppState where
  currentTab : Tab
  connectionState : ConnectionState
  sendState : SendState
  receiveState : ReceiveState
  settings : AppSettings
  history : List TransferRecord
  session : Option Nat
  transferProgress : Option TransferProgress
  cancelListener : Bool
  currentTransfer : Option TransferRecord
  deriving DecidableEq, Repr

/-- `./received` -/
def defaultOutputDir : OsStr := [46, 47, 114, 101, 99, 101, 105, 118, 101, 100]

/-- `path.display()` -/
def display (path : OsStr) : OsStr := Foundation.LossyText.lossy path

def AppState.new (deviceId : Uuid) : AppState where
  currentTab := .connection
  connectionState :=
    { mode := .listen
      peerAddress := []
      peerFingerprint := []
      port := ['1', '4', '5', '6', '7']
      deviceId := some deviceId
      useDiscovery := false
      rendezvousAddress := []
      code := []
      statusMessage := .idle
      isActive := false }
  sendState := ⟨none, []⟩
  receiveState := ⟨defaultOutputDir, display defaultOutputDir, false⟩
  settings := .default
  history := []
  session := none
  transferProgress := none
  cancelListener := false
  currentTransfer := none

/-! ## Messages and what they start -/

inductive Message where
  | tabSelected (tab : Tab)
  | modeSelected (mode : ConnectionMode)
  | peerAddressChanged (address : Text)
  | peerFingerprintChanged (fingerprint : Text)
  | portChanged (port : Text)
  | discoveryToggled (enabled : Bool)
  | rendezvousAddressChanged (address : Text)
  | codeChanged (code : Text)
  | generateCode
  | startConnection
  | stopConnection
  | connectionEstablished
  | connectionEstablishedWithSession (session : Nat)
  | connectionFailed
  | pathInputChanged (path : OsStr)
  | browseFile
  | browseFolder
  | pathSelected (path : Option OsStr)
  | startSend
  | sendComplete (bytesTransferred : Nat)
  | sendFailed (error : Error)
  | outputDirChanged (dir : OsStr)
  | browseOutputDir
  | openOutputDir
  | outputDirSelected (dir : Option OsStr)
  | autoAcceptToggled (enabled : Bool)
  | compressionToggled (enabled : Bool)
  | compressionLevelChanged (level : Int)
  | chunkSizeChanged (size : UInt32)
  | bandwidthLimitChanged (limit : Text)
  | maxRetriesChanged (retries : UInt32)
  | consoleAction
  deriving DecidableEq, Repr

/-- The messages in which work in the background ends. -/
def Message.reports : Message → Bool
  | .connectionEstablished | .connectionEstablishedWithSession _ | .connectionFailed
  | .pathSelected _ | .sendComplete _ | .sendFailed _ | .outputDirSelected _ => true
  | _ => false

structure ListenRequest where
  port : Nat
  deviceId : Uuid
  config : ConfigMessage
  outputDir : OsStr
  autoAccept : Bool
  deriving DecidableEq, Repr

structure PairRequest where
  rendezvous : Text
  code : Text
  deviceId : Uuid
  config : ConfigMessage
  deriving DecidableEq, Repr

structure ConnectRequest where
  address : Text
  port : Nat
  useDiscovery : Bool
  peerFpHex : Text
  deviceId : Uuid
  config : ConfigMessage
  deriving DecidableEq, Repr

structure SendRequest where
  session : Nat
  path : OsStr
  maxRetries : UInt32
  deriving DecidableEq, Repr

/-- The work that a message starts; the dialogs differ only in what they let the user pick. -/
inductive Command where
  | none
  | pickPath
  | pickOutputDir
  | listen (request : ListenRequest)
  | pair (request : PairRequest)
  | connect (request : ConnectRequest)
  | send (request : SendRequest)
  deriving DecidableEq, Repr

inductive Panic where
  | arithmetic (fault : Fault)
  | unwrapNone
  deriving DecidableEq, Repr

abbrev Handled := Except Panic (AppState × Command)

/-- What a handler asks of the machine: which paths exist, random values and the time. -/
structure Surroundings where
  pathExists : OsStr → Bool
  code : Text
  transferId : Uuid
  now : Nat

/-! ## The handlers -/

def unwrap {Value : Type} : Option Value → Except Panic Value
  | some value => .ok value
  | none => .error .unwrapNone

def AppState.configMessage (build : Build) (state : AppState) : Except Panic ConfigMessage :=
  (state.settings.toConfigMessage build).mapError .arithmetic

/-- `text.parse::<u16>().unwrap_or(14567)` -/
def portOf (text : Text) : Nat := ((parseU64 text).filter fun port => port < 65536).getD 14567

def AppState.withConnection (state : AppState) (status : StatusMessage) (isActive : Bool) :
    AppState :=
  { state with
    connectionState :=
      { state.connectionState with statusMessage := status, isActive := isActive } }

def startListener (build : Build) (state : AppState) : Handled := do
  let waiting := state.withConnection .listening true
  let deviceId ← unwrap state.connectionState.deviceId
  let config ← state.configMessage build
  return ({ waiting with cancelListener := false },
    .listen { port := portOf state.connectionState.port
              deviceId := deviceId
              config := config
              outputDir := state.receiveState.outputDir
              autoAccept := state.receiveState.autoAccept })

def startPairing (build : Build) (state : AppState) : Handled :=
  let rendezvous := trim state.connectionState.rendezvousAddress
  let code := trim state.connectionState.code
  if rendezvous = [] ∨ code = [] then .ok (state.withConnection .idle false, .none)
  else do
    let deviceId ← unwrap state.connectionState.deviceId
    let config ← state.configMessage build
    return (state.withConnection .pairing true, .pair ⟨rendezvous, code, deviceId, config⟩)

def startConnecting (build : Build) (state : AppState) : Handled := do
  let deviceId ← unwrap state.connectionState.deviceId
  let config ← state.configMessage build
  return (state.withConnection .connecting true,
    .connect { address := state.connectionState.peerAddress
               port := portOf state.connectionState.port
               useDiscovery := state.connectionState.useDiscovery
               peerFpHex := trim state.connectionState.peerFingerprint
               deviceId := deviceId
               config := config })

def handleStartConnection (build : Build) (state : AppState) : Handled :=
  match state.connectionState.mode with
  | .listen => startListener build state
  | .rendezvous => startPairing build state
  | .connect => startConnecting build state

/-- A path that was picked goes before one that was typed. -/
def pathToSend (send : SendState) : Option OsStr :=
  match send.selectedPath with
  | some path => some path
  | none => if send.pathInput = [] then none else some send.pathInput

/-- `path.file_name().unwrap_or_default().to_string_lossy()` -/
def displayName (path : OsStr) : OsStr := ((fileName path).map display).getD []

def handleStartSend (build : Build) (given : Surroundings) (state : AppState) : Handled :=
  match state.session, pathToSend state.sendState with
  | none, _ | some _, none => .ok (state, .none)
  | some session, some path =>
      if given.pathExists path then do
        let started :=
          { state with
            transferProgress := some ⟨displayName path, true⟩
            currentTransfer := some (.new given.transferId .send (.word "peer") given.now) }
        let _ ← state.configMessage build
        return (started, .send ⟨session, path, state.settings.maxRetries⟩)
      else .ok (state, .none)

/-- The record under way goes to the history, closed by how the send ended. -/
def AppState.closeTransfer (state : AppState) (close : TransferRecord → TransferRecord) :
    AppState :=
  { state with
    history := state.history ++ (state.currentTransfer.map close).toList
    currentTransfer := none
    transferProgress := none }

def handleSendComplete (given : Surroundings) (state : AppState) (bytesTransferred : Nat) :
    AppState :=
  -- `unknown`
  let fileName := (state.transferProgress.map (·.name)).getD [117, 110, 107, 110, 111, 119, 110]
  state.closeTransfer fun record => record.complete [fileName] bytesTransferred given.now

def handleSendFailed (given : Surroundings) (state : AppState) (error : Error) : AppState :=
  state.closeTransfer fun record => record.fail error given.now

def handleStopConnection (state : AppState) : AppState :=
  { state.withConnection .idle false with cancelListener := true, session := none }

def handlePathSelected (state : AppState) (path : OsStr) : AppState :=
  { state with sendState := ⟨some path, display path⟩ }

def handleOutputDirSelected (state : AppState) (dir : OsStr) : AppState :=
  { state with
    receiveState := { state.receiveState with outputInput := display dir, outputDir := dir } }

/-- A text that is no bandwidth leaves the limit as it was. -/
def handleBandwidthLimitChanged (toLowercase : Text → Text) (state : AppState) (limit : Text) :
    AppState :=
  let bandwidthLimit :=
    match Core.ParseBandwidth.parseBandwidth toLowercase limit with
    | .ok bandwidth => UInt64.ofNat bandwidth
    | .error _ => state.settings.bandwidthLimit
  { state with
    settings :=
      { state.settings with bandwidthInput := limit, bandwidthLimit := bandwidthLimit } }

def AppState.setConnection (state : AppState) (change : ConnectionState → ConnectionState) :
    AppState :=
  { state with connectionState := change state.connectionState }

def AppState.setSettings (state : AppState) (change : AppSettings → AppSettings) : AppState :=
  { state with settings := change state.settings }

def handleMessage (build : Build) (toLowercase : Text → Text) (given : Surroundings)
    (state : AppState) : Message → Handled
  | .tabSelected tab => .ok ({ state with currentTab := tab }, .none)
  | .modeSelected mode => .ok (state.setConnection ({ · with mode := mode }), .none)
  | .peerAddressChanged address =>
      .ok (state.setConnection ({ · with peerAddress := address }), .none)
  | .peerFingerprintChanged fingerprint =>
      .ok (state.setConnection ({ · with peerFingerprint := fingerprint }), .none)
  | .portChanged port => .ok (state.setConnection ({ · with port := port }), .none)
  | .discoveryToggled enabled =>
      .ok (state.setConnection ({ · with useDiscovery := enabled }), .none)
  | .rendezvousAddressChanged address =>
      .ok (state.setConnection ({ · with rendezvousAddress := address }), .none)
  | .codeChanged code => .ok (state.setConnection ({ · with code := code }), .none)
  | .generateCode => .ok (state.setConnection ({ · with code := given.code }), .none)
  | .startConnection => handleStartConnection build state
  | .stopConnection => .ok (handleStopConnection state, .none)
  | .connectionEstablished => .ok (state.withConnection .connected true, .none)
  | .connectionEstablishedWithSession session =>
      .ok ({ state.withConnection .connected true with session := some session }, .none)
  | .connectionFailed => .ok (state.withConnection .idle false, .none)
  | .pathInputChanged path =>
      .ok ({ state with sendState := { state.sendState with pathInput := path } }, .none)
  | .browseFile | .browseFolder => .ok (state, .pickPath)
  | .pathSelected (some path) => .ok (handlePathSelected state path, .none)
  | .startSend => handleStartSend build given state
  | .sendComplete bytesTransferred => .ok (handleSendComplete given state bytesTransferred, .none)
  | .sendFailed error => .ok (handleSendFailed given state error, .none)
  | .outputDirChanged dir =>
      .ok ({ state with receiveState := { state.receiveState with outputInput := dir } }, .none)
  | .browseOutputDir => .ok (state, .pickOutputDir)
  | .outputDirSelected (some dir) => .ok (handleOutputDirSelected state dir, .none)
  | .autoAcceptToggled enabled =>
      .ok ({ state with receiveState := { state.receiveState with autoAccept := enabled } }, .none)
  | .compressionToggled enabled =>
      .ok (state.setSettings ({ · with compressionEnabled := enabled }), .none)
  | .compressionLevelChanged level =>
      .ok (state.setSettings ({ · with compressionLevel := level }), .none)
  | .chunkSizeChanged size => .ok (state.setSettings ({ · with chunkSizeKb := size }), .none)
  | .bandwidthLimitChanged limit =>
      .ok (handleBandwidthLimitChanged toLowercase state limit, .none)
  | .maxRetriesChanged retries => .ok (state.setSettings ({ · with maxRetries := retries }), .none)
  -- a cancelled dialog, the file explorer and the console leave the state alone
  | .pathSelected none | .outputDirSelected none | .openOutputDir | .consoleAction =>
      .ok (state, .none)

/-! ## What a message changes -/

variable {build : Build} {toLowercase : Text → Text} {given : Surroundings}
  {state after : AppState} {message : Message} {command : Command}

/-- The inputs, and the answers of the dialogs. -/
def Message.edits : Message → Bool
  | .startConnection | .stopConnection | .connectionEstablished
  | .connectionEstablishedWithSession _ | .connectionFailed
  | .startSend | .sendComplete _ | .sendFailed _ => false
  | _ => true

def Command.connects : Command → Bool
  | .listen _ | .pair _ | .connect _ => true
  | .none | .pickPath | .pickOutputDir | .send _ => false

def Command.picks : Command → Bool
  | .none | .pickPath | .pickOutputDir => true
  | .listen _ | .pair _ | .connect _ | .send _ => false

/-- Neither the connection nor a transfer is touched. -/
structure Frame (state after : AppState) : Prop where
  deviceId : after.connectionState.deviceId = state.connectionState.deviceId
  statusMessage : after.connectionState.statusMessage = state.connectionState.statusMessage
  isActive : after.connectionState.isActive = state.connectionState.isActive
  cancelListener : after.cancelListener = state.cancelListener
  session : after.session = state.session
  history : after.history = state.history
  transferProgress : after.transferProgress = state.transferProgress
  currentTransfer : after.currentTransfer = state.currentTransfer

theorem Frame.refl (state : AppState) : Frame state state :=
  ⟨rfl, rfl, rfl, rfl, rfl, rfl, rfl, rfl⟩

/-- What a message comes to, if its handler does not panic. -/
inductive Responded (build : Build) (given : Surroundings) (state : AppState) :
    Message → AppState → Command → Prop where
  | edited {message : Message} {after : AppState} {command : Command}
      (hedits : message.edits = true) (hframe : Frame state after)
      (hpicks : command.picks = true) : Responded build given state message after command
  | connecting {after : AppState} {command : Command}
      (hstart : handleStartConnection build state = .ok (after, command)) :
      Responded build given state .startConnection after command
  | stopped : Responded build given state .stopConnection (handleStopConnection state) .none
  | established :
      Responded build given state .connectionEstablished (state.withConnection .connected true)
        .none
  | session {session : Nat} :
      Responded build given state (.connectionEstablishedWithSession session)
        { state.withConnection .connected true with session := some session } .none
  | failed : Responded build given state .connectionFailed (state.withConnection .idle false) .none
  | sending {after : AppState} {command : Command}
      (hstart : handleStartSend build given state = .ok (after, command)) :
      Responded build given state .startSend after command
  | sent {bytesTransferred : Nat} :
      Responded build given state (.sendComplete bytesTransferred)
        (handleSendComplete given state bytesTransferred) .none
  | sendFailed {error : Error} :
      Responded build given state (.sendFailed error) (handleSendFailed given state error) .none

theorem responded_of_handleMessage
    (hhandled : handleMessage build toLowercase given state message = .ok (after, command)) :
    Responded build given state message after command := by
  cases message with
  | startConnection => exact .connecting hhandled
  | startSend => exact .sending hhandled
  | stopConnection =>
      cases hhandled
      exact .stopped
  | connectionEstablished =>
      cases hhandled
      exact .established
  | connectionEstablishedWithSession session =>
      cases hhandled
      exact .session
  | connectionFailed =>
      cases hhandled
      exact .failed
  | sendComplete bytesTransferred =>
      cases hhandled
      exact .sent
  | sendFailed error =>
      cases hhandled
      exact .sendFailed
  | pathSelected path | outputDirSelected path =>
      cases path <;>
      · cases hhandled
        exact .edited rfl ⟨rfl, rfl, rfl, rfl, rfl, rfl, rfl, rfl⟩ rfl
  | tabSelected _ | modeSelected _ | peerAddressChanged _ | peerFingerprintChanged _
  | portChanged _ | discoveryToggled _ | rendezvousAddressChanged _ | codeChanged _ | generateCode
  | pathInputChanged _ | browseFile | browseFolder | outputDirChanged _ | browseOutputDir
  | openOutputDir | autoAcceptToggled _ | compressionToggled _ | compressionLevelChanged _
  | chunkSizeChanged _ | bandwidthLimitChanged _ | maxRetriesChanged _ | consoleAction =>
      cases hhandled
      exact .edited rfl ⟨rfl, rfl, rfl, rfl, rfl, rfl, rfl, rfl⟩ rfl

/-- A connection that is started, or a pairing that lacks an address or a code. -/
inductive ConnectionStarted (build : Build) (state : AppState) : AppState → Command → Prop where
  | refused (hmode : state.connectionState.mode = .rendezvous) :
      ConnectionStarted build state (state.withConnection .idle false) .none
  | listening {deviceId : Uuid} {config : ConfigMessage}
      (hmode : state.connectionState.mode = .listen)
      (hdevice : state.connectionState.deviceId = some deviceId)
      (hconfig : state.settings.toConfigMessage build = .ok config) :
      ConnectionStarted build state
        { state.withConnection .listening true with cancelListener := false }
        (.listen ⟨portOf state.connectionState.port, deviceId, config,
          state.receiveState.outputDir, state.receiveState.autoAccept⟩)
  | pairing {deviceId : Uuid} {config : ConfigMessage}
      (hmode : state.connectionState.mode = .rendezvous)
      (hdevice : state.connectionState.deviceId = some deviceId)
      (hconfig : state.settings.toConfigMessage build = .ok config) :
      ConnectionStarted build state (state.withConnection .pairing true)
        (.pair ⟨trim state.connectionState.rendezvousAddress, trim state.connectionState.code,
          deviceId, config⟩)
  | connecting {deviceId : Uuid} {config : ConfigMessage}
      (hmode : state.connectionState.mode = .connect)
      (hdevice : state.connectionState.deviceId = some deviceId)
      (hconfig : state.settings.toConfigMessage build = .ok config) :
      ConnectionStarted build state (state.withConnection .connecting true)
        (.connect ⟨state.connectionState.peerAddress, portOf state.connectionState.port,
          state.connectionState.useDiscovery, trim state.connectionState.peerFingerprint,
          deviceId, config⟩)

theorem bind_eq_ok {Value Result : Type} {attempt : Except Panic Value}
    {following : Value → Except Panic Result} {result : Result}
    (hbind : attempt >>= following = .ok result) :
    ∃ value, attempt = .ok value ∧ following value = .ok result := by
  cases attempt with
  | error panic => cases hbind
  | ok value => exact ⟨value, rfl, hbind⟩

theorem unwrap_eq_ok {Value : Type} {option : Option Value} {value : Value}
    (hunwrap : unwrap option = .ok value) : option = some value := by
  cases option with
  | none => cases hunwrap
  | some other =>
      cases hunwrap
      rfl

theorem configMessage_eq_ok {config : ConfigMessage}
    (hconfig : state.configMessage build = .ok config) :
    state.settings.toConfigMessage build = .ok config := by
  unfold AppState.configMessage at hconfig
  cases hchecked : state.settings.toConfigMessage build with
  | error fault =>
      rw [hchecked] at hconfig
      cases hconfig
  | ok other =>
      rw [hchecked] at hconfig
      cases hconfig
      rfl

theorem connectionStarted_of_eq
    (hstart : handleStartConnection build state = .ok (after, command)) :
    ConnectionStarted build state after command := by
  unfold handleStartConnection at hstart
  split at hstart
  · rename_i hmode
    obtain ⟨deviceId, hdevice, hrest⟩ := bind_eq_ok hstart
    obtain ⟨config, hconfig, hresult⟩ := bind_eq_ok hrest
    cases hresult
    exact .listening hmode (unwrap_eq_ok hdevice) (configMessage_eq_ok hconfig)
  · rename_i hmode
    unfold startPairing at hstart
    dsimp only at hstart
    split at hstart
    · cases hstart
      exact .refused hmode
    · obtain ⟨deviceId, hdevice, hrest⟩ := bind_eq_ok hstart
      obtain ⟨config, hconfig, hresult⟩ := bind_eq_ok hrest
      cases hresult
      exact .pairing hmode (unwrap_eq_ok hdevice) (configMessage_eq_ok hconfig)
  · rename_i hmode
    obtain ⟨deviceId, hdevice, hrest⟩ := bind_eq_ok hstart
    obtain ⟨config, hconfig, hresult⟩ := bind_eq_ok hrest
    cases hresult
    exact .connecting hmode (unwrap_eq_ok hdevice) (configMessage_eq_ok hconfig)

/-- A send that is started, or refused with a line on the console. -/
inductive SendStarted (given : Surroundings) (state : AppState) :
    AppState → Command → Prop where
  | refused : SendStarted given state state .none
  | started {session : Nat} {path : OsStr} (hsession : state.session = some session)
      (hpath : pathToSend state.sendState = some path) :
      SendStarted given state
        { state with
          transferProgress := some ⟨displayName path, true⟩
          currentTransfer := some (.new given.transferId .send (.word "peer") given.now) }
        (.send ⟨session, path, state.settings.maxRetries⟩)

theorem sendStarted_of_eq (hstart : handleStartSend build given state = .ok (after, command)) :
    SendStarted given state after command := by
  unfold handleStartSend at hstart
  split at hstart
  · cases hstart
    exact .refused
  · cases hstart
    exact .refused
  · rename_i session path hsession hpath
    split at hstart
    · obtain ⟨config, _, hresult⟩ := bind_eq_ok hstart
      cases hresult
      exact .started hsession hpath
    · cases hstart
      exact .refused

/-! ## Panics -/

variable {panic : Panic}

/-- The chunk size is typed in KiB, and its product with 1024 does not fit. -/
structure Overflows (build : Build) (state : AppState) (panic : Panic) : Prop where
  build : build = .checked
  panic : panic = .arithmetic .overflow
  large : 2 ^ 22 ≤ state.settings.chunkSizeKb.toNat

theorem overflows_of_configMessage (hpanic : state.configMessage build = .error panic) :
    Overflows build state panic := by
  unfold AppState.configMessage AppSettings.toConfigMessage at hpanic
  cases build with
  | wrapping => cases hpanic
  | checked =>
      by_cases hfits : state.settings.chunkSizeKb.toNat * 1024 < 2 ^ 32
      · rw [Build.keep_of_lt .checked hfits] at hpanic
        cases hpanic
      · rw [Build.keep_checked_of_le (Nat.not_lt.mp hfits)] at hpanic
        cases hpanic
        refine ⟨rfl, rfl, ?_⟩
        omega

theorem overflows_of_start {outcome : Uuid → ConfigMessage → AppState × Command}
    (hdevice : state.connectionState.deviceId ≠ none)
    (hpanic : (unwrap state.connectionState.deviceId >>= fun deviceId =>
      state.configMessage build >>= fun config => pure (outcome deviceId config)) = .error panic) :
    Overflows build state panic := by
  obtain ⟨deviceId, hsome⟩ := Option.ne_none_iff_exists'.mp hdevice
  rw [hsome] at hpanic
  cases hconfig : state.configMessage build with
  | ok config =>
      rw [hconfig] at hpanic
      cases hpanic
  | error other =>
      rw [hconfig] at hpanic
      cases hpanic
      exact overflows_of_configMessage hconfig

/-- With a device identifier in the state nothing else panics. -/
theorem overflows_of_handleMessage (hdevice : state.connectionState.deviceId ≠ none)
    (hpanic : handleMessage build toLowercase given state message = .error panic) :
    Overflows build state panic := by
  cases message with
  | startConnection =>
      change handleStartConnection build state = _ at hpanic
      unfold handleStartConnection at hpanic
      split at hpanic
      · exact overflows_of_start hdevice hpanic
      · unfold startPairing at hpanic
        dsimp only at hpanic
        split at hpanic
        · cases hpanic
        · exact overflows_of_start hdevice hpanic
      · exact overflows_of_start hdevice hpanic
  | startSend =>
      change handleStartSend build given state = _ at hpanic
      unfold handleStartSend at hpanic
      split at hpanic
      · cases hpanic
      · cases hpanic
      · split at hpanic
        · cases hconfig : state.configMessage build with
          | ok config =>
              rw [hconfig] at hpanic
              cases hpanic
          | error other =>
              rw [hconfig] at hpanic
              cases hpanic
              exact overflows_of_configMessage hconfig
        · cases hpanic
  | pathSelected path | outputDirSelected path => cases path <;> cases hpanic
  | _ => cases hpanic

/-- The chunk size is the one before, or the one that the message brings. -/
theorem chunkSize_of_handleMessage
    (hhandled : handleMessage build toLowercase given state message = .ok (after, command)) :
    after.settings.chunkSizeKb = state.settings.chunkSizeKb ∨
      message = .chunkSizeChanged after.settings.chunkSizeKb := by
  cases message with
  | startConnection => cases connectionStarted_of_eq hhandled <;> exact .inl rfl
  | startSend => cases sendStarted_of_eq hhandled <;> exact .inl rfl
  | chunkSizeChanged size =>
      cases hhandled
      exact .inr rfl
  | pathSelected path | outputDirSelected path =>
      cases path <;>
      · cases hhandled
        exact .inl rfl
  | _ =>
      cases hhandled
      exact .inl rfl

end P2PFileTransfer.Gui.HandleMessage
