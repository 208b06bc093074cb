import P2PFileTransfer.Gui.Sends
import P2PFileTransfer.Session.HexFields

/-!
# The peers of the window

A send goes over a session that the user once asked for, and the session is still with the
peer that was meant then: the one whose address and fingerprint stood in the fields when the
button was pressed, also after reconnects.
-/

namespace P2PFileTransfer.Gui.Peers

open P2PFileTransfer.Foundation.Hex
open P2PFileTransfer.Foundation.TextSearch (trim)
open P2PFileTransfer.Foundation.Utf8 (utf8Len)
open P2PFileTransfer.Core.Protocol (Fingerprint Uuid)
open P2PFileTransfer.Session.Rendezvous (P2PSession)
open P2PFileTransfer.Session.Lifecycle (Standing Target standing_of_born)
open P2PFileTransfer.Gui.HandleMessage
open P2PFileTransfer.Gui.App
open P2PFileTransfer.Gui.Sends

/-! ## Fingerprints that were typed -/

/-- A printed fingerprint is read back. -/
theorem parseFingerprint_encode (fingerprint : Fingerprint) :
    parseFingerprint (encode fingerprint.val) = some fingerprint := by
  have hlength : utf8Len (encode fingerprint.val) = 64 := by
    rw [Session.HexFields.utf8Len_of_digits fun char hmem => (of_mem_encode hmem).1,
      length_encode, fingerprint.property]
  unfold parseFingerprint
  rw [if_neg (not_not_intro hlength), decode_encode]
  exact dif_pos fingerprint.property

/-- With an address in its field, the fingerprint is the one in its field. -/
theorem peerTarget_of_address {addresses : AddrParser} {request : ConnectRequest}
    {discovered : Option (Session.Rendezvous.SocketAddr × Fingerprint)}
    {peerAddr : Session.Rendezvous.SocketAddr} {peerFp : Fingerprint}
    (htarget : peerTarget addresses request discovered = some (peerAddr, peerFp))
    (haddress : request.address ≠ []) :
    parsePeerAddr addresses request.address request.port = some peerAddr ∧
      parseFingerprint request.peerFpHex = some peerFp := by
  unfold peerTarget at htarget
  rw [if_pos haddress] at htarget
  split at htarget
  · rename_i fingerprint address hfingerprint hparsed
    cases htarget
    exact ⟨hparsed, hfingerprint⟩
  · cases htarget

/-! ## What the user asked for -/

/-- The session that was asked for in this state, by the fields at that time. -/
inductive Meant (setup : Setup) (deviceId : Uuid) (state : AppState) (session : P2PSession) :
    Prop where
  | paired (hmode : state.connectionState.mode = .rendezvous)
      (hstanding : Standing setup.sha256 deviceId none session) : Meant setup deviceId state session
  | dialled {target : Target} (hmode : state.connectionState.mode = .connect)
      (hconfig : state.settings.toConfigMessage setup.build = .ok target.config)
      (htyped : state.connectionState.peerAddress ≠ [] →
        parsePeerAddr setup.addresses state.connectionState.peerAddress
            (portOf state.connectionState.port) = some target.peerAddr ∧
          parseFingerprint (trim state.connectionState.peerFingerprint) =
            some target.peerFingerprint)
      (hstanding : Standing setup.sha256 deviceId (some target) session) :
      Meant setup deviceId state session

theorem Meant.reconnect {setup : Setup} {deviceId : Uuid} {state : AppState}
    {session next : P2PSession} {operation : Session.Lifecycle.Operation}
    (hmeant : Meant setup deviceId state session)
    (hstep : Session.Lifecycle.step setup.sha256 setup.identity session operation = some next) :
    Meant setup deviceId state next := by
  cases hmeant with
  | paired hmode hstanding => exact .paired hmode (hstanding.step hstep)
  | dialled hmode hconfig htyped hstanding =>
      exact .dialled hmode hconfig htyped (hstanding.step hstep)

/-- The states in which a connection was started. -/
def press (program : Program) (event : Event) (log : List AppState) : List AppState :=
  match program, event with
  | .running world, .user .startConnection _ => log ++ [world.app]
  | _, _ => log

def pressed (setup : Setup) (program : Program) (events : List Event) : List AppState :=
  Foundation.Run.track (step setup) press [] program events

/-- Everything that points to a session points to one that was asked for. -/
structure Known (setup : Setup) (deviceId : Uuid) (log : List AppState) (world : World) : Prop where
  device : world.app.connectionState.deviceId = some deviceId
  devices : ∀ state ∈ log, state.connectionState.deviceId = some deviceId
  asked : ∀ task ∈ world.tasks, task.command.connects = true →
    ∃ state ∈ log, ∃ after, ConnectionStarted setup.build state after task.command
  meant : ∀ made ∈ world.established, ∃ state ∈ log, Meant setup deviceId state made.session
  session : ∀ session, world.app.session = some session → session < world.established.length
  sends : ∀ task ∈ world.tasks, ∀ request, sendOf task.command = some request →
    request.session < world.established.length
  messages : ∀ command session,
    .finished command (.connectionEstablishedWithSession session) ∈ world.tasks →
      session < world.established.length

variable {setup : Setup} {deviceId : Uuid} {log : List AppState} {world : World} {event : Event}
  {given : Surroundings} {message : Message} {state after : AppState} {command : Command}

/-! ## Handling a message -/

theorem deviceId_of_responded
    (hresponded : Responded setup.build given state message after command) :
    after.connectionState.deviceId = state.connectionState.deviceId := by
  cases hresponded with
  | edited _ hframe _ => exact hframe.deviceId
  | connecting hstart => cases connectionStarted_of_eq hstart <;> rfl
  | stopped | established | session | failed | sent | sendFailed => rfl
  | sending hstart => cases sendStarted_of_eq hstart <;> rfl

/-- The session is the one before, the one of the message, or gone. -/
theorem session_of_responded
    (hresponded : Responded setup.build given state message after command) :
    after.session = state.session ∨ after.session = none ∨
      ∃ session, message = .connectionEstablishedWithSession session ∧
        after.session = some session := by
  cases hresponded with
  | edited _ hframe _ => exact .inl hframe.session
  | connecting hstart => cases connectionStarted_of_eq hstart <;> exact .inl rfl
  | stopped => exact .inr (.inl rfl)
  | session => exact .inr (.inr ⟨_, rfl, rfl⟩)
  | established | failed | sent | sendFailed => exact .inl rfl
  | sending hstart => cases sendStarted_of_eq hstart <;> exact .inl rfl

theorem connects_of_responded (hresponded : Responded setup.build given state message after command)
    (hconnects : command.connects = true) :
    message = .startConnection ∧ ConnectionStarted setup.build state after command := by
  cases hresponded with
  | edited _ _ hpicks =>
      cases command with
      | none | pickPath | pickOutputDir | send _ => cases hconnects
      | listen _ | pair _ | connect _ => cases hpicks
  | connecting hstart => exact ⟨rfl, connectionStarted_of_eq hstart⟩
  | stopped | established | session | failed | sent | sendFailed => cases hconnects
  | sending hstart => cases sendStarted_of_eq hstart <;> cases hconnects

theorem send_of_responded (hresponded : Responded setup.build given state message after command)
    {request : SendRequest} (hsend : sendOf command = some request) :
    state.session = some request.session := by
  cases hresponded with
  | edited _ _ hpicks =>
      cases command with
      | none | pickPath | pickOutputDir | listen _ | pair _ | connect _ => cases hsend
      | send _ => cases hpicks
  | connecting hstart => cases connectionStarted_of_eq hstart <;> cases hsend
  | stopped | established | session | failed | sent | sendFailed => cases hsend
  | sending hstart =>
      cases sendStarted_of_eq hstart with
      | refused => cases hsend
      | started hsession _ =>
          cases hsend
          exact hsession

theorem command_of_mem_spawn {task : Task} (hmem : task ∈ spawn command) :
    task.command = command ∧ ∀ command message, task ≠ .finished command message := by
  cases command with
  | none => cases hmem
  | pickPath | pickOutputDir | listen _ | pair _ | connect _ | send _ =>
      rw [List.mem_singleton.mp hmem]
      refine ⟨rfl, ?_⟩
      rintro _ _ ⟨⟩

theorem Known.handle {tasks : List Task} {later : World} (hknown : Known setup deviceId log world)
    (hsub : ∀ task ∈ tasks, task ∈ world.tasks)
    (hpress : message = .startConnection → world.app ∈ log)
    (hsession : ∀ session, message = .connectionEstablishedWithSession session →
      session < world.established.length)
    (hhandle : world.handle setup given message tasks = .running later) :
    Known setup deviceId log later := by
  obtain ⟨app, command, hhandled, rfl⟩ := exists_of_handle hhandle
  have hresponded := responded_of_handleMessage hhandled
  refine ⟨(deviceId_of_responded hresponded).trans hknown.device, hknown.devices, ?_, hknown.meant,
    ?_, ?_, ?_⟩
  · intro task hmem hconnects
    rcases List.mem_append.mp hmem with hold | hnew
    · exact hknown.asked task (hsub task hold) hconnects
    · rw [(command_of_mem_spawn hnew).1] at hconnects ⊢
      obtain ⟨hstart, hstarted⟩ := connects_of_responded hresponded hconnects
      exact ⟨world.app, hpress hstart, app, hstarted⟩
  · intro session happ
    rcases session_of_responded hresponded with hsame | hnone | ⟨other, hmessage, hother⟩
    · exact hknown.session session (hsame.symm.trans happ)
    · exact absurd (hnone.symm.trans happ) (Option.some_ne_none session).symm
    · obtain rfl : other = session := Option.some.inj (hother.symm.trans happ)
      exact hsession other hmessage
  · intro task hmem request hsend
    rcases List.mem_append.mp hmem with hold | hnew
    · exact hknown.sends task (hsub task hold) request hsend
    · rw [(command_of_mem_spawn hnew).1] at hsend
      exact hknown.session _ (send_of_responded hresponded hsend)
  · intro other session hmem
    rcases List.mem_append.mp hmem with hold | hnew
    · exact hknown.messages other session (hsub _ hold)
    · exact absurd rfl ((command_of_mem_spawn hnew).2 other _)

/-- The state in which a connection is started joins the log. -/
theorem Known.logged (hknown : Known setup deviceId log world) :
    Known setup deviceId (log ++ [world.app]) world where
  device := hknown.device
  devices := by
    intro state hmem
    rcases List.mem_append.mp hmem with hold | hnew
    · exact hknown.devices state hold
    · rw [List.mem_singleton.mp hnew]
      exact hknown.device
  asked := by
    intro task hmem hconnects
    obtain ⟨state, hstate, hasked⟩ := hknown.asked task hmem hconnects
    exact ⟨state, List.mem_append_left _ hstate, hasked⟩
  meant := by
    intro made hmem
    obtain ⟨state, hstate, hmeant⟩ := hknown.meant made hmem
    exact ⟨state, List.mem_append_left _ hstate, hmeant⟩
  session := hknown.session
  sends := hknown.sends
  messages := hknown.messages

/-! ## A turn of the work -/

variable {cancelled : Bool} {established kept : List Established} {task later : Task} {move : Move}

theorem Advanced.length_le (hadvanced : Advanced setup cancelled established task move kept later) :
    established.length ≤ kept.length := by
  cases hadvanced with
  | picked | pickedOutputDir | listened _ | unpaired _ | unconnected _ | sent => exact Nat.le_refl _
  | paired _ | dialled _ _ =>
      rw [List.length_append]
      exact Nat.le_add_right _ _
  | reconnected _ _ => exact Nat.le_of_eq List.length_set.symm

/-- A message that points to a session points to one that is there. -/
theorem Advanced.message_lt {command : Command} {session : Nat}
    (hadvanced : Advanced setup cancelled established task move kept later)
    (hlater : later = .finished command (.connectionEstablishedWithSession session)) :
    session < kept.length := by
  cases hadvanced with
  | picked | pickedOutputDir | unpaired _ | unconnected _ | reconnected _ _ => cases hlater
  | listened hturn => cases hturn <;> cases hlater
  | sent => rename_i result; cases result <;> cases hlater
  | paired _ | dialled _ _ =>
      cases hlater
      rw [List.length_append]
      exact Nat.lt_succ_self _

/-- The sessions after a turn are those that were asked for. -/
theorem Known.meant_of_advanced (hknown : Known setup deviceId log world)
    (hmem : task ∈ world.tasks)
    (hadvanced : Advanced setup cancelled world.established task move kept later) :
    ∀ made ∈ kept, ∃ state ∈ log, Meant setup deviceId state made.session := by
  have hasked := hknown.asked task hmem
  have hnew {made : Established} (hmeant : ∃ state ∈ log, Meant setup deviceId state made.session) :
      ∀ other ∈ world.established ++ [made], ∃ state ∈ log,
        Meant setup deviceId state other.session := by
    intro other hother
    rcases List.mem_append.mp hother with hold | hlast
    · exact hknown.meant other hold
    · rw [List.mem_singleton.mp hlast]
      exact hmeant
  cases hadvanced with
  | picked | pickedOutputDir | listened _ | unpaired _ | unconnected _ | sent => exact hknown.meant
  | paired hready =>
      obtain ⟨state, hstate, after, hstarted⟩ := hasked rfl
      cases hstarted with
      | pairing hmode hdevice _ =>
          cases hdevice.symm.trans (hknown.devices state hstate)
          exact hnew ⟨state, hstate, .paired hmode (standing_of_born (.paired hready))⟩
  | @dialled _ _ peerAddr peerFp _ _ _ htarget hconnect =>
      obtain ⟨state, hstate, after, hstarted⟩ := hasked rfl
      cases hstarted with
      | @connecting _ config hmode hdevice hconfig =>
          cases hdevice.symm.trans (hknown.devices state hstate)
          refine hnew ⟨state, hstate, @Meant.dialled _ _ _ _ ⟨peerAddr, peerFp, config⟩ hmode
            hconfig (peerTarget_of_address htarget) ?_⟩
          exact standing_of_born
            (@Session.Lifecycle.Born.connected _ _ _ ⟨peerAddr, peerFp, config⟩ _ _ _ hconnect)
  | reconnected hmade hstep =>
      intro other hother
      rcases List.mem_or_eq_of_mem_set hother with hold | rfl
      · exact hknown.meant other hold
      · obtain ⟨state, hstate, hmeant⟩ := hknown.meant _ (List.mem_of_getElem? hmade)
        exact ⟨state, hstate, hmeant.reconnect hstep⟩

theorem Known.worked {before after : List Task} (hknown : Known setup deviceId log world)
    (htasks : world.tasks = before ++ task :: after)
    (hadvanced : Advanced setup world.app.cancelListener world.established task move kept later) :
    Known setup deviceId log ⟨world.app, kept, before ++ later :: after⟩ := by
  have hmem : task ∈ world.tasks := htasks ▸ List.mem_append_right _ List.mem_cons_self
  have hcases {other : Task} (hother : other ∈ before ++ later :: after) :
      other ∈ world.tasks ∨ other = later := by
    rw [htasks]
    rcases List.mem_append.mp hother with hbefore | hrest
    · exact .inl (List.mem_append_left _ hbefore)
    · rcases List.mem_cons.mp hrest with hlater | hafter
      · exact .inr hlater
      · exact .inl (List.mem_append_right _ (List.mem_cons_of_mem _ hafter))
  have hgrows := Advanced.length_le hadvanced
  refine ⟨hknown.device, hknown.devices, ?_, hknown.meant_of_advanced hmem hadvanced, ?_, ?_, ?_⟩
  · intro other hother hconnects
    rcases hcases hother with hold | rfl
    · exact hknown.asked other hold hconnects
    · rw [hadvanced.command_eq] at hconnects ⊢
      exact hknown.asked task hmem hconnects
  · exact fun session hsession => Nat.lt_of_lt_of_le (hknown.session session hsession) hgrows
  · intro other hother request hsend
    rcases hcases hother with hold | rfl
    · exact Nat.lt_of_lt_of_le (hknown.sends other hold request hsend) hgrows
    · rw [hadvanced.command_eq] at hsend
      exact Nat.lt_of_lt_of_le (hknown.sends task hmem request hsend) hgrows
  · intro command session hother
    rcases hcases hother with hold | hlater
    · exact Nat.lt_of_lt_of_le (hknown.messages command session hold) hgrows
    · exact Advanced.message_lt hadvanced hlater.symm

/-! ## Every run -/

theorem Known.step {later : World} (hanswering : Answering world)
    (hknown : Known setup deviceId log world)
    (hstep : step setup (.running world) event = some (.running later)) :
    Known setup deviceId (press (.running world) event log) later := by
  generalize hnext : Program.running later = next at hstep
  cases stepped_of_step hstep with
  | @user message given hoffered =>
      have hsession : ∀ session, message = .connectionEstablishedWithSession session →
          session < world.established.length := by
        rintro session rfl
        cases reports_of_view hoffered
      cases message with
      | startConnection =>
          exact hknown.logged.handle (fun _ hmem => hmem)
            (fun _ => List.mem_append_right _ List.mem_cons_self) hsession hnext.symm
      | _ =>
          exact hknown.handle (fun _ hmem => hmem) (fun hstart => by cases hstart) hsession
            hnext.symm
  | @delivered index given command message before after hfound htasks =>
      have hmem : .finished command message ∈ world.tasks :=
        htasks ▸ List.mem_append_right _ List.mem_cons_self
      have hanswers : Answers command message := hanswering _ hmem
      refine hknown.handle (fun task htask => ?_) (fun hstart => ?_) (fun session hmessage => ?_)
        hnext.symm
      · rw [htasks]
        rcases List.mem_append.mp htask with hbefore | hafter
        · exact List.mem_append_left _ hbefore
        · exact List.mem_append_right _ (List.mem_cons_of_mem _ hafter)
      · subst hstart
        cases reports_of_answers hanswers
      · exact hknown.messages command session (hmessage ▸ hmem)
  | worked _ htasks hadvanced =>
      cases hnext
      exact hknown.worked htasks hadvanced

def KnownProgram (setup : Setup) (deviceId : Uuid) (log : List AppState) : Program → Prop
  | .running world => Answering world ∧ Known setup deviceId log world
  | .panicked _ => True

theorem knownProgram_step {program next : Program}
    (hknown : KnownProgram setup deviceId log program)
    (hstep : step setup program event = some next) :
    KnownProgram setup deviceId (press program event log) next := by
  cases program with
  | panicked panic => cases hstep
  | running world =>
      cases next with
      | panicked panic => trivial
      | running after => exact ⟨hknown.1.step hstep, hknown.2.step hknown.1 hstep⟩

theorem known_opened (setup : Setup) (deviceId : Uuid) :
    Known setup deviceId [] (.opened deviceId) where
  device := rfl
  devices := fun _ hmem => absurd hmem List.not_mem_nil
  asked := fun _ hmem => absurd hmem List.not_mem_nil
  meant := fun _ hmem => absurd hmem List.not_mem_nil
  session := fun _ hsession => by cases hsession
  sends := fun _ hmem => absurd hmem List.not_mem_nil
  messages := fun _ _ hmem => absurd hmem List.not_mem_nil

theorem known_of_run {events : List Event}
    (hrun : run setup (opened deviceId) events = some (.running world)) :
    Known setup deviceId (pressed setup (opened deviceId) events) world := by
  have hall : ∀ event ∈ events, True := fun _ _ => trivial
  have hstart : KnownProgram setup deviceId [] (opened deviceId) :=
    ⟨fun _ hmem => absurd hmem List.not_mem_nil, known_opened setup deviceId⟩
  have hknown : KnownProgram setup deviceId (pressed setup (opened deviceId) events)
      (.running world) := by
    refine Foundation.Run.invariant_track (KnownProgram setup deviceId) ?_ hall hstart hrun
    exact fun log program event next hknown _ hstep => knownProgram_step hknown hstep
  exact hknown.2

/-- What a typed fingerprint says of a session: its peer has shown that certificate. -/
theorem Meant.shown {session : P2PSession} {fingerprint : Fingerprint}
    (hmeant : Meant setup deviceId state session) (hmode : state.connectionState.mode = .connect)
    (haddress : state.connectionState.peerAddress ≠ [])
    (htyped : trim state.connectionState.peerFingerprint = encode fingerprint.val) :
    session.connection.peerFingerprint setup.sha256 = some fingerprint := by
  cases hmeant with
  | paired hrendezvous _ => cases hmode.symm.trans hrendezvous
  | dialled _ _ hfields hstanding =>
      have hparsed := (hfields haddress).2
      rw [htyped, parseFingerprint_encode] at hparsed
      rw [hstanding.authentic, (hstanding.pinned _ rfl).2.1]
      exact hparsed.symm

/-- The session of a send is one that was asked for by the fields of the window, and its
peer the one that was meant: where an address and a printed fingerprint were typed, the
holder of the certificate with that fingerprint. -/
def Reached (setup : Setup) (deviceId : Uuid) (log : List AppState) (world : World)
    (request : SendRequest) : Prop :=
  ∃ made state, world.established[request.session]? = some made ∧ state ∈ log ∧
    Meant setup deviceId state made.session ∧
    ∀ fingerprint : Fingerprint, state.connectionState.mode = .connect →
      state.connectionState.peerAddress ≠ [] →
      trim state.connectionState.peerFingerprint = encode fingerprint.val →
      made.session.connection.peerFingerprint setup.sha256 = some fingerprint

end P2PFileTransfer.Gui.Peers
