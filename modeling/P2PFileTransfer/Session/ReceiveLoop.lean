import P2PFileTransfer.Core.FolderReceiver
import P2PFileTransfer.Session.Lifecycle
import P2PFileTransfer.Session.Records

/-!
# The receive loop

A receiver takes one transfer after the other on its session, and brings the session up
again when the peer goes: in direct mode it takes the next caller, through a rendezvous it
pairs anew.  Every transfer that does not end with the peer leaving is put on record, under
the address of the peer it was made with.
-/

namespace P2PFileTransfer.Session.ReceiveLoop

open P2PFileTransfer.Foundation.ByteFile
open P2PFileTransfer.Foundation.UnixPath
open P2PFileTransfer.Core.Protocol
open P2PFileTransfer.Core.FolderReceiver (TransferSummary)
open P2PFileTransfer.Session.Handshake
open P2PFileTransfer.Session.Rendezvous (SocketAddr P2PSession Inbound)
open P2PFileTransfer.Session.Lifecycle
open P2PFileTransfer.Session.Records

/-! ## The loop -/

/-- How the command pairs: `--rendezvous`, or a role of its own. -/
inductive Mode where
  | rendezvous
  | direct
  deriving DecidableEq, Repr

/-- What the loop holds, and the records that reached the disk. -/
structure Listening where
  session : P2PSession
  peerAddr : SocketAddr
  history : List TransferRecord

inductive Phase where
  | receiving (listening : Listening)
  | recovering (listening : Listening)
  | ended (listening : Listening) (error : Error)

/-- A call of `receive_to` with its times, and whether its record could be stored. -/
structure Attempted where
  transferId : Uuid
  startTime : Nat
  endTime : Nat
  result : Except Error TransferSummary
  stored : Bool

inductive Event where
  | received (attempted : Attempted)
  | reaccepted (caller : Inbound) (inputs : List HandshakeInput)
  | paired (deviceId : Uuid) (events : List Rendezvous.Event)

/-- The peer has left: at the end of a message, or as the transport reports it. -/
def isDisconnect : Error → Bool
  | .disconnected | .quic _ => true
  | _ => false

/-- The record of a call; nothing is recorded of a peer that left. -/
def recordOf (peerAddr : SocketAddr) (attempted : Attempted) : Option TransferRecord :=
  let record :=
    TransferRecord.new attempted.transferId .receive (.printed peerAddr) attempted.startTime
  match attempted.result with
  | .ok summary =>
      if summary.files.isEmpty then some (record.interrupt [] 0 attempted.endTime)
      else some (record.complete summary.files summary.bytes attempted.endTime)
  | .error error => if isDisconnect error then none else some (record.fail error attempted.endTime)

/-- A record that cannot be stored is lost with a warning. -/
def Listening.put (listening : Listening) (attempted : Attempted) : Listening :=
  { listening with
    history := listening.history ++
      if attempted.stored then (recordOf listening.peerAddr attempted).toList else [] }

/-- `receive_one`, and what the loop makes of its outcome. -/
def receiveOne (listening : Listening) (attempted : Attempted) : Phase :=
  match attempted.result with
  | .ok _ => .receiving (listening.put attempted)
  | .error error =>
      if isDisconnect error then .recovering listening else .ended (listening.put attempted) error

/-- The new session, with the address of its peer. -/
def Listening.resume (listening : Listening) (session : P2PSession) : Listening :=
  { listening with session := session, peerAddr := session.connection.remoteAddress }

/-- `recover_after_disconnect`; pairing anew is a session of its own. -/
def step (sha256 : Bytes → Digest) (identity : Fingerprint) (mode : Mode) :
    Phase → Event → Option Phase
  | .receiving listening, .received attempted => some (receiveOne listening attempted)
  | .recovering listening, .reaccepted caller inputs =>
      if mode = .direct then
        (reaccept sha256 identity listening.session caller inputs).map fun
          | .ok session => .receiving (listening.resume session)
          | .error error => .ended listening error
      else none
  | .recovering listening, .paired deviceId events =>
      if mode = .rendezvous then
        (Rendezvous.run sha256 ⟨deviceId, identity, .default⟩ .register events).bind fun
          | .ready session => some (.receiving (listening.resume session))
          | .failed error => some (.ended listening error)
          | _ => none
      else none
  | _, _ => none

abbrev run (sha256 : Bytes → Digest) (identity : Fingerprint) (mode : Mode) :
    Phase → List Event → Option Phase :=
  Foundation.Run.run (step sha256 identity mode)

/-- The loop begins with the session it paired. -/
def begin (session : P2PSession) (history : List TransferRecord) : Phase :=
  .receiving ⟨session, session.connection.remoteAddress, history⟩

def Phase.listening : Phase → Listening
  | .receiving listening | .recovering listening | .ended listening _ => listening

/-! ## What was transferred with whom -/

/-- A call of `receive_to` and the session it was made on. -/
structure Transfer where
  session : P2PSession
  attempted : Attempted

/-- The call that an event reports, with the session of its time. -/
def made (phase : Phase) : Event → List Transfer
  | .received attempted => [⟨phase.listening.session, attempted⟩]
  | .reaccepted _ _ | .paired _ _ => []

def transfers (sha256 : Bytes → Digest) (identity : Fingerprint) (mode : Mode) :
    Phase → List Event → List Transfer
  | _, [] => []
  | phase, event :: rest =>
      match step sha256 identity mode phase event with
      | none => []
      | some next => made phase event ++ transfers sha256 identity mode next rest

/-- The record that belongs on disk. -/
def Transfer.record (transfer : Transfer) : Option TransferRecord :=
  if transfer.attempted.stored then
    recordOf transfer.session.connection.remoteAddress transfer.attempted
  else none

/-- The call failed, and not because the peer left. -/
def Transfer.Fatal (transfer : Transfer) : Prop :=
  ∃ error, transfer.attempted.result = .error error ∧ isDisconnect error = false

/-- The session is with a peer that has shown the certificate it claims. -/
def Authentic (sha256 : Bytes → Digest) (session : P2PSession) : Prop :=
  session.connection.peerFingerprint sha256 = some session.handshake.peerFingerprint

/-- The address in use is the one of the session, and the session one of those that this
identity can have. -/
structure Sound (sha256 : Bytes → Digest) (listening : Listening) : Prop where
  address : listening.peerAddr = listening.session.connection.remoteAddress
  standing : ∃ deviceId target, Standing sha256 deviceId target listening.session

variable {sha256 : Bytes → Digest} {identity : Fingerprint} {mode : Mode} {phase next : Phase}
  {event : Event} {listening : Listening} {attempted : Attempted}

/-! ## One step -/

theorem Sound.authentic (hsound : Sound sha256 listening) : Authentic sha256 listening.session := by
  obtain ⟨deviceId, target, hstanding⟩ := hsound.standing
  exact hstanding.authentic

/-- The record of a call names the peer of its session. -/
theorem put_history (hsound : Sound sha256 listening) : (listening.put attempted).history =
    listening.history ++ (Transfer.record ⟨listening.session, attempted⟩).toList := by
  unfold Listening.put Transfer.record
  rw [hsound.address]
  split <;> rfl

theorem record_of_disconnect {error : Error} (hresult : attempted.result = .error error)
    (hdisconnect : isDisconnect error = true) (session : P2PSession) :
    Transfer.record ⟨session, attempted⟩ = none := by
  unfold Transfer.record recordOf
  simp only [hresult, hdisconnect, if_true, ite_self]

/-- What one step does to the loop. -/
structure Advanced (sha256 : Bytes → Digest) (phase : Phase) (event : Event) (next : Phase) :
    Prop where
  sound : Sound sha256 next.listening
  history : next.listening.history =
    phase.listening.history ++ (made phase event).filterMap Transfer.record
  fatal : ∀ transfer ∈ made phase event, transfer.Fatal → ∃ error,
    transfer.attempted.result = .error error ∧ next = .ended next.listening error

theorem advanced_receiveOne (hsound : Sound sha256 listening) :
    Advanced sha256 (.receiving listening) (.received attempted)
      (receiveOne listening attempted) := by
  have hput : Sound sha256 (listening.put attempted) := ⟨hsound.address, hsound.standing⟩
  have hrecorded : (made (.receiving listening) (.received attempted)).filterMap Transfer.record =
      (Transfer.record ⟨listening.session, attempted⟩).toList := by
    cases hrecord : Transfer.record ⟨listening.session, attempted⟩ with
    | none => exact List.filterMap_cons_none hrecord
    | some record => exact List.filterMap_cons_some hrecord
  unfold receiveOne
  cases hresult : attempted.result with
  | ok summary =>
      refine ⟨hput, (put_history hsound).trans (congrArg _ hrecorded.symm), ?_⟩
      rintro transfer hmem ⟨error, herror, _⟩
      cases List.mem_singleton.mp hmem
      rw [hresult] at herror
      cases herror
  | error error =>
      by_cases hdisconnect : isDisconnect error = true
      · dsimp only
        rw [if_pos hdisconnect]
        refine ⟨hsound, ?_, ?_⟩
        · rw [hrecorded, record_of_disconnect hresult hdisconnect]
          exact (List.append_nil _).symm
        · rintro transfer hmem ⟨other, hother, hfatal⟩
          cases List.mem_singleton.mp hmem
          rw [hresult] at hother
          cases hother
          rw [hdisconnect] at hfatal
          cases hfatal
      · dsimp only
        rw [if_neg hdisconnect]
        refine ⟨hput, (put_history hsound).trans (congrArg _ hrecorded.symm), ?_⟩
        rintro transfer hmem _
        cases List.mem_singleton.mp hmem
        exact ⟨error, hresult, rfl⟩

theorem advanced_of_step (hsound : Sound sha256 phase.listening)
    (hstep : step sha256 identity mode phase event = some next) :
    Advanced sha256 phase event next := by
  have hsame (listening : Listening) : listening.history = listening.history ++ [] :=
    (List.append_nil _).symm
  have hnone {transfer : Transfer} {Outcome : Prop} (hmem : transfer ∈ []) : Outcome :=
    absurd hmem List.not_mem_nil
  unfold step at hstep
  split at hstep
  · cases hstep
    exact advanced_receiveOne hsound
  · split at hstep
    · obtain ⟨outcome, hreaccept, rfl⟩ := Option.map_eq_some_iff.mp hstep
      cases outcome with
      | error error => exact ⟨hsound, hsame _, fun _ hmem => hnone hmem⟩
      | ok session =>
          obtain ⟨deviceId, target, hstanding⟩ := hsound.standing
          exact ⟨⟨rfl, deviceId, target, hstanding.reaccept hreaccept⟩, hsame _,
            fun _ hmem => hnone hmem⟩
    · cases hstep
  · split at hstep
    · obtain ⟨reached, hrun, hreached⟩ := Option.bind_eq_some_iff.mp hstep
      split at hreached
      · cases hreached
        exact ⟨⟨rfl, _, _, standing_of_born (.paired hrun)⟩, hsame _, fun _ hmem => hnone hmem⟩
      · cases hreached
        exact ⟨hsound, hsame _, fun _ hmem => hnone hmem⟩
      · cases hreached
    · cases hstep
  · cases hstep

/-! ## Every run -/

/-- What the calls of a run leave behind. -/
structure Recorded (sha256 : Bytes → Digest) (history : List TransferRecord)
    (made : List Transfer) (final : Phase) : Prop where
  history : final.listening.history = history ++ made.filterMap Transfer.record
  authentic : ∀ transfer ∈ made, Authentic sha256 transfer.session
  /-- A call that fails is the last one, and ends the loop with its error. -/
  fatal : ∀ before transfer after, made = before ++ transfer :: after → transfer.Fatal →
    after = [] ∧ ∃ error, transfer.attempted.result = .error error ∧
      final = .ended final.listening error

theorem recorded_of_run {events : List Event} {final : Phase}
    (hsound : Sound sha256 phase.listening)
    (hrun : run sha256 identity mode phase events = some final) :
    Recorded sha256 phase.listening.history (transfers sha256 identity mode phase events) final := by
  induction events generalizing phase with
  | nil =>
      cases hrun
      refine ⟨(List.append_nil _).symm, fun _ hmem => absurd hmem List.not_mem_nil, ?_⟩
      intro before transfer after hmade
      exact absurd hmade.symm (List.append_ne_nil_of_right_ne_nil _ (List.cons_ne_nil _ _))
  | cons event rest ih =>
      obtain ⟨next, hstep, hrest⟩ := Option.bind_eq_some_iff.mp hrun
      have hadvanced := advanced_of_step hsound hstep
      have hlater := ih hadvanced.sound hrest
      have hmade : transfers sha256 identity mode phase (event :: rest) =
          made phase event ++ transfers sha256 identity mode next rest := by
        rw [transfers, hstep]
      rw [hmade]
      have hauthentic : ∀ transfer ∈ made phase event, Authentic sha256 transfer.session := by
        intro transfer hmem
        cases event with
        | received attempted =>
            cases List.mem_singleton.mp hmem
            exact hsound.authentic
        | reaccepted _ _ | paired _ _ => exact absurd hmem List.not_mem_nil
      refine ⟨?_, ?_, ?_⟩
      · rw [hlater.history, hadvanced.history, List.filterMap_append, List.append_assoc]
      · intro transfer hmem
        rcases List.mem_append.mp hmem with hnow | hafter
        · exact hauthentic transfer hnow
        · exact hlater.authentic transfer hafter
      · intro before transfer after hsplit hfatal
        cases event with
        | reaccepted caller inputs => exact hlater.fatal before transfer after hsplit hfatal
        | paired deviceId events => exact hlater.fatal before transfer after hsplit hfatal
        | received attempted =>
            cases before with
            | cons first before =>
                obtain ⟨_, htail⟩ := List.cons.inj hsplit
                exact hlater.fatal before transfer after htail hfatal
            | nil =>
                obtain ⟨rfl, htail⟩ := List.cons.inj hsplit
                obtain ⟨error, hresult, hended⟩ :=
                  hadvanced.fatal _ (List.mem_singleton_self _) hfatal
                -- nothing follows the end
                rw [hended] at hrest htail
                cases rest with
                | nil =>
                    cases hrest
                    exact ⟨htail.symm, error, hresult, rfl⟩
                | cons other rest => cases other <;> cases hrest

/-- A receiver that dialled its peer has no other one: the first time that peer leaves is
the end of the loop. -/
theorem dialled_of_run {deviceId : Uuid} {target : Target} {session : P2PSession}
    (hborn : Born sha256 identity deviceId (some target) session) {events : List Event}
    {history : List TransferRecord} {final : Phase}
    (hrun : run sha256 identity .direct (begin session history) events = some final) :
    final.listening.session = session := by
  have hkind : session.initiatorTarget.isSome = true := by
    rw [(standing_of_born hborn).kind]
    rfl
  refine Foundation.Run.invariant_run (fun phase : Phase => phase.listening.session = session)
    ?_ rfl hrun
  intro phase event next hsame hstep
  unfold step at hstep
  split at hstep
  · cases hstep
    unfold receiveOne
    split
    · exact hsame
    · split <;> exact hsame
  · rename_i listening caller inputs
    change listening.session = session at hsame
    rw [if_pos rfl, hsame, reaccept, if_pos hkind] at hstep
    cases hstep
    exact hsame
  · rw [if_neg nofun] at hstep
    cases hstep
  · cases hstep

/-- Whatever the session of the loop was made by: the history grows by one record for each
call that did not end with the peer leaving and whose record could be stored, in order and
under the address of a peer that has shown the certificate it claims, and a call that fails
is the last one. -/
theorem receive_loop_records {deviceId : Uuid} {target : Option Target} {session : P2PSession}
    (hborn : Born sha256 identity deviceId target session) {events : List Event}
    {history : List TransferRecord} {final : Phase}
    (hrun : run sha256 identity mode (begin session history) events = some final) :
    Recorded sha256 history (transfers sha256 identity mode (begin session history) events) final ∧
      (target.isSome → mode = .direct → final.listening.session = session) := by
  refine ⟨recorded_of_run ⟨rfl, _, _, standing_of_born hborn⟩ hrun, ?_⟩
  rintro hdialled rfl
  obtain ⟨made, rfl⟩ := Option.isSome_iff_exists.mp hdialled
  exact dialled_of_run hborn hrun

/-- One file arrives, then the peer leaves, and there is nobody to take in its place. -/
def oneFile : List Event :=
  [.received ⟨FixedBytes.filled 16 5, 10, 15, .ok ⟨[102], [[97]], 3⟩, true⟩,
    .received ⟨FixedBytes.filled 16 6, 20, 21, .error .disconnected, true⟩,
    .reaccepted (.failed .timeout) []]

theorem receive_loop_records_one : ∃ final,
    run Pinning.padded (Pinning.padded [2]) .direct (begin homeSession []) oneFile = some final ∧
      Recorded Pinning.padded []
        (transfers Pinning.padded (Pinning.padded [2]) .direct (begin homeSession []) oneFile)
        final ∧
      ((some home).isSome → Mode.direct = .direct → final.listening.session = homeSession) := by
  have hborn : Born Pinning.padded (Pinning.padded [2]) (FixedBytes.filled 16 2) (some home)
      homeSession :=
    @Born.connected _ _ _ home (.presented ⟨[1], []⟩) (Pinning.peerScript true home.peerFingerprint)
      _ rfl
  exact ⟨_, rfl, @receive_loop_records _ _ .direct _ _ _ hborn oneFile [] _ rfl⟩

end P2PFileTransfer.Session.ReceiveLoop
