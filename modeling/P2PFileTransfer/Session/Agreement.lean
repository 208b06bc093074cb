import P2PFileTransfer.Session.Configuration

/-!
# What a handshake agrees on

A side reads two messages.  Against any peer at all, the first message that is not the
expected one ends its handshake before it sends anything else, so a result names a peer
that speaks this version and holds the certificate it claims.  Against an honest peer
the two results name each other and carry the configuration of the client.
-/

namespace P2PFileTransfer.Session.Agreement

open P2PFileTransfer.Foundation.Process
open P2PFileTransfer.Core.Protocol
open P2PFileTransfer.Session.Handshake
open P2PFileTransfer.Session.Configuration

/-- The peer speaks this version, and its certificate is the one that was observed. -/
def Genuine (party : Party) (peer : HelloMessage) : Prop :=
  peer.protocolVersion = protocolVersion ∧ party.observed = some peer.certFingerprint

/-- The HELLO a side waits for. -/
def greeting (initiates : Bool) (peer : HelloMessage) : Message :=
  if initiates then .helloAck peer else .hello peer

/-- The messages a stage goes on from; a stage that sends waits for none. -/
def Expected (party : Party) : Stage → Message → Prop
  | .clientRecvHelloAck, message => ∃ peer, message = .helloAck peer ∧ Genuine party peer
  | .clientRecvConfigAck _, message => message = .configAck
  | .serverRecvHello, message => ∃ peer, message = .hello peer ∧ Genuine party peer
  | .serverRecvConfig _, message => ∃ config, message = .config config
  | _, _ => False

/-- What a side hands to the control stream at a stage, whether or not that fails. -/
def emitted (party : Party) (state : HandshakeState) : List Message :=
  match state.status with
  | .running stage =>
      match action party stage with
      | .send message => [message]
      | _ => []
  | _ => []

/-- Everything a side hands to the control stream in a run. -/
def sent (party : Party) : HandshakeState → List HandshakeInput → List Message
  | _, [] => []
  | state, input :: rest =>
      match (machine party).step state input with
      | none => []
      | some next => emitted party state ++ sent party next rest

variable {party : Party} {read : HelloMessage → Prop}

theorem sent_cons_of_step {state next : HandshakeState} {input : HandshakeInput}
    (hstep : (machine party).step state input = some next) (rest : List HandshakeInput) :
    sent party state (input :: rest) = emitted party state ++ sent party next rest := by
  rw [sent, hstep]

theorem sent_append_of_run {state middle : HandshakeState} {first : List HandshakeInput}
    (hrun : Foundation.Run.run (machine party).step state first = some middle)
    (second : List HandshakeInput) :
    sent party state (first ++ second) = sent party state first ++ sent party middle second := by
  induction first generalizing state with
  | nil =>
      cases hrun
      rfl
  | cons input rest ih =>
      obtain ⟨next, hstep, hrest⟩ := Option.bind_eq_some_iff.mp hrun
      rw [List.cons_append, sent_cons_of_step hstep, sent_cons_of_step hstep, ih hrest,
        List.append_assoc]

/-! ## A message that is not the expected one -/

theorem readHelloAck_unexpected {message : Message}
    (hunexpected : ¬ Expected party .clientRecvHelloAck message) :
    ∃ error, readHelloAck party message = .failed .clientRecvHelloAck error := by
  unfold readHelloAck
  split
  · rename_i peer
    cases hpeer : checkPeer party peer with
    | error error => exact ⟨error, rfl⟩
    | ok done => exact absurd ⟨peer, rfl, checkPeer_eq_ok_iff.mp hpeer⟩ hunexpected
  · exact ⟨_, rfl⟩
  · exact ⟨_, rfl⟩

theorem readHello_unexpected {message : Message}
    (hunexpected : ¬ Expected party .serverRecvHello message) :
    ∃ error, readHello party message = .failed .serverRecvHello error := by
  unfold readHello
  split
  · rename_i peer
    cases hpeer : checkPeer party peer with
    | error error => exact ⟨error, rfl⟩
    | ok done => exact absurd ⟨peer, rfl, checkPeer_eq_ok_iff.mp hpeer⟩ hunexpected
  · exact ⟨_, rfl⟩

theorem readConfigAck_unexpected {peer : HelloMessage} {message : Message}
    (hunexpected : ¬ Expected party (.clientRecvConfigAck peer) message) :
    ∃ error, readConfigAck party peer message = .failed (.clientRecvConfigAck peer) error := by
  unfold readConfigAck
  split
  · exact absurd rfl hunexpected
  · exact ⟨_, rfl⟩
  · exact ⟨_, rfl⟩

theorem readConfig_unexpected {peer : HelloMessage} {message : Message}
    (hunexpected : ¬ Expected party (.serverRecvConfig peer) message) :
    ∃ error, readConfig peer message = .failed (.serverRecvConfig peer) error := by
  unfold readConfig
  split
  · exact absurd ⟨_, rfl⟩ hunexpected
  · exact ⟨_, rfl⟩

/-- Reading such a message fails, and sends nothing. -/
theorem failed_of_unexpected {state next : HandshakeState} {stage : Stage} {message : Message}
    (hstatus : state.status = .running stage)
    (hstep : (machine party).step state (.message message) = some next)
    (hunexpected : ¬ Expected party stage message) :
    (∃ error, next.status = .failed stage error) ∧ emitted party state = [] := by
  cases stepped_of_step hstep with
  | resume hrunning hreply hnext =>
      rw [hstatus] at hrunning
      cases hrunning
      rw [hnext, emitted, hstatus]
      cases stage with
      | clientSendHello | clientSendConfig _ | serverSendHelloAck _ | serverSendConfigAck _ _ =>
          cases hreply
      | clientRecvHelloAck =>
          cases hreply
          exact ⟨readHelloAck_unexpected hunexpected, rfl⟩
      | clientRecvConfigAck peer =>
          cases hreply
          exact ⟨readConfigAck_unexpected hunexpected, rfl⟩
      | serverRecvHello =>
          cases hreply
          exact ⟨readHello_unexpected hunexpected, rfl⟩
      | serverRecvConfig peer =>
          cases hreply
          exact ⟨readConfig_unexpected hunexpected, rfl⟩

/-! ## The peer that was met -/

/-- The HELLO a stage has read. -/
def metPeer : Stage → Option HelloMessage
  | .clientSendConfig peer | .clientRecvConfigAck peer | .serverSendHelloAck peer
  | .serverRecvConfig peer | .serverSendConfigAck peer _ => some peer
  | .clientSendHello | .clientRecvHelloAck | .serverRecvHello => none

/-- The stages of the initiating side. -/
def initiating : Stage → Bool
  | .clientSendHello | .clientRecvHelloAck | .clientSendConfig _ | .clientRecvConfigAck _ => true
  | .serverRecvHello | .serverSendHelloAck _ | .serverRecvConfig _ | .serverSendConfigAck _ _ => false

/-- What a side knows about its peer after it has read the HELLO, and what it returns. -/
def Met (party : Party) (initiates : Bool) (read : HelloMessage → Prop) : StageStatus → Prop
  | .running stage =>
      initiating stage = initiates ∧
        ∀ peer, metPeer stage = some peer → read peer ∧ Genuine party peer
  | .returned outcome =>
      ∃ peer, read peer ∧ Genuine party peer ∧ outcome.peerDeviceId = peer.deviceId ∧
        outcome.peerFingerprint = peer.certFingerprint
  | .failed _ _ | .panicked _ _ => True

variable {initiates : Bool}

theorem met_begin : Met party initiates read (begin initiates).status := by
  cases initiates <;> exact ⟨rfl, nofun⟩

theorem met_running {stage : Stage} {peer : HelloMessage} (hrole : initiating stage = initiates)
    (hstage : metPeer stage = some peer) (hpeer : read peer ∧ Genuine party peer) :
    Met party initiates read (.running stage) := by
  refine ⟨hrole, ?_⟩
  intro other hother
  rw [hstage] at hother
  cases hother
  exact hpeer

theorem met_result {peer : HelloMessage} (config : ConfigMessage)
    (hpeer : read peer ∧ Genuine party peer) :
    Met party initiates read (.returned (result peer config)) :=
  ⟨peer, hpeer.1, hpeer.2, rfl, rfl⟩

theorem met_readHelloAck {message : Message} (hrole : true = initiates)
    (hread : ∀ peer, message = greeting initiates peer → read peer) :
    Met party initiates read (readHelloAck party message) := by
  unfold readHelloAck
  split
  · rename_i peer
    cases hpeer : checkPeer party peer with
    | error error => trivial
    | ok done =>
        subst hrole
        exact met_running rfl rfl ⟨hread peer rfl, checkPeer_eq_ok_iff.mp hpeer⟩
  · trivial
  · trivial

theorem met_readHello {message : Message} (hrole : false = initiates)
    (hread : ∀ peer, message = greeting initiates peer → read peer) :
    Met party initiates read (readHello party message) := by
  unfold readHello
  split
  · rename_i peer
    cases hpeer : checkPeer party peer with
    | error error => trivial
    | ok done =>
        subst hrole
        exact met_running rfl rfl ⟨hread peer rfl, checkPeer_eq_ok_iff.mp hpeer⟩
  · trivial

theorem met_readConfigAck {peer : HelloMessage} {message : Message}
    (hpeer : read peer ∧ Genuine party peer) :
    Met party initiates read (readConfigAck party peer message) := by
  unfold readConfigAck
  split
  · exact met_result _ hpeer
  · trivial
  · trivial

theorem met_readConfig {peer : HelloMessage} {message : Message} (hrole : false = initiates)
    (hpeer : read peer ∧ Genuine party peer) :
    Met party initiates read (readConfig peer message) := by
  unfold readConfig
  split
  · exact met_running hrole rfl hpeer
  · trivial

theorem met_resume {stage : Stage} {reply : Reply Message Bool}
    (hfits : (action party stage).Fits reply)
    (hread : ∀ message, reply = .message message →
      ∀ peer, message = greeting initiates peer → read peer)
    (hmet : Met party initiates read (.running stage)) :
    Met party initiates read (resume party stage reply) := by
  obtain ⟨hrole, hpeer⟩ := hmet
  cases stage <;> cases reply <;> try exact hfits.elim
  case clientSendHello.done => exact ⟨hrole, nofun⟩
  case clientRecvHelloAck.message message => exact met_readHelloAck hrole (hread message rfl)
  case clientSendConfig.done peer => exact met_running hrole rfl (hpeer peer rfl)
  case clientRecvConfigAck.message peer message => exact met_readConfigAck (hpeer peer rfl)
  case serverRecvHello.message message => exact met_readHello hrole (hread message rfl)
  case serverSendHelloAck.done peer => exact met_running hrole rfl (hpeer peer rfl)
  case serverRecvConfig.message peer message => exact met_readConfig hrole (hpeer peer rfl)
  case serverSendConfigAck.done peer config => exact met_result config (hpeer peer rfl)

theorem met_step {state next : HandshakeState} {input : HandshakeInput}
    (hstep : (machine party).step state input = some next)
    (hread : ∀ peer, input = .message (greeting initiates peer) → read peer)
    (hmet : Met party initiates read state.status) : Met party initiates read next.status := by
  cases stepped_of_step hstep with
  | fail hstatus hstore hnext =>
      rw [hnext]
      trivial
  | resume hstatus hreply hnext =>
      rw [hnext]
      rw [hstatus] at hmet
      refine met_resume (Action.fits_of_reply hreply) ?_ hmet
      rintro message rfl peer rfl
      exact hread peer (Action.input_of_reply_message hreply)

/-! ## The two halves -/

/-- What a side is sure of in a run against any peer. -/
structure Guarded (party : Party) (initiates : Bool) (inputs : List HandshakeInput)
    (final : HandshakeState) : Prop where
  genuine : ∀ outcome, final.status = .returned outcome →
    ∃ peer, .message (greeting initiates peer) ∈ inputs ∧ Genuine party peer ∧
      outcome.peerDeviceId = peer.deviceId ∧ outcome.peerFingerprint = peer.certFingerprint
  silent : ∀ before message after middle stage, inputs = before ++ .message message :: after →
    Foundation.Run.run (machine party).step (begin initiates) before = some middle →
    middle.status = .running stage → ¬ Expected party stage message →
    (∃ error, final.status = .failed stage error) ∧
      sent party (begin initiates) inputs = sent party (begin initiates) before

/-- What two honest sides are sure of. -/
structure Agreed (client server : Party) (final : Negotiation) : Prop where
  same : ∀ own peer, final.sender.status = .returned own → final.receiver.status = .returned peer →
    own.config = peer.config ∧
      (own.peerDeviceId = server.deviceId ∧ own.peerFingerprint = server.fingerprint) ∧
      peer.peerDeviceId = client.deviceId ∧ peer.peerFingerprint = client.fingerprint
  served : ∀ peer, final.receiver.status = .returned peer → peer.config = client.config

theorem met_of_run {inputs : List HandshakeInput} {final : HandshakeState}
    (hrun : Foundation.Run.run (machine party).step (begin initiates) inputs = some final) :
    Met party initiates (fun peer => .message (greeting initiates peer) ∈ inputs) final.status := by
  have hinputs : Foundation.Run.Along (machine party).step (fun _ input => input ∈ inputs)
      (begin initiates) inputs := Foundation.Run.along_of_forall (fun _ _ hinput => hinput) _
  refine Foundation.Run.invariant_along
    (fun state : HandshakeState =>
      Met party initiates (fun peer => .message (greeting initiates peer) ∈ inputs) state.status)
    ?_ hinputs met_begin hrun
  intro state input next hmet hinput hstep
  refine met_step hstep ?_ hmet
  rintro peer rfl
  exact hinput

theorem guarded_of_run {inputs : List HandshakeInput} {final : HandshakeState}
    (hrun : Foundation.Run.run (machine party).step (begin initiates) inputs = some final) :
    Guarded party initiates inputs final := by
  constructor
  · intro outcome hreturned
    have hmet := met_of_run hrun
    rw [hreturned] at hmet
    exact hmet
  · intro before message after middle stage hinputs hbefore hstatus hunexpected
    rw [hinputs, Foundation.Run.run_append_of_run hbefore] at hrun
    obtain ⟨next, hstep, hrest⟩ := Option.bind_eq_some_iff.mp hrun
    obtain ⟨⟨error, hfailed⟩, hemitted⟩ := failed_of_unexpected hstatus hstep hunexpected
    have hstuck (input : HandshakeInput) : (machine party).step next input = none := by
      rw [Machine.step, hfailed]
    cases after with
    | nil =>
        cases hrest
        refine ⟨⟨error, hfailed⟩, ?_⟩
        rw [hinputs, sent_append_of_run hbefore, sent_cons_of_step hstep, hemitted]
        exact List.append_nil _
    | cons input rest =>
        rw [Foundation.Run.run_cons, hstuck] at hrest
        cases hrest

/-- An honest side meets the other one, and introduces itself. -/
theorem maintains_met {self other : Party} : Maintains self
    (Met self initiates (fun peer => peer = hello other))
    (fun message => ∀ peer, message = greeting initiates peer → peer = hello other)
    (fun message => ∀ peer, message = greeting (!initiates) peer → peer = hello self) := by
  constructor
  · intro stage reply hfits hheard hmet
    exact met_resume hfits hheard hmet
  · intro stage error _
    trivial
  · rintro stage message hsend ⟨hrole, _⟩ peer rfl
    subst hrole
    cases stage <;> cases hsend <;> rfl

theorem agreed_of_run {client server : Party} {turns : List Turn} {final : Negotiation}
    (hrun : Configuration.run client server (start true false) turns = some final) :
    Agreed client server final := by
  obtain ⟨hclient, hserver, _, _⟩ := joint_of_run (@maintains_met true client server)
    (@maintains_met false server client) met_begin met_begin hrun
  have hconsistent := consistent_of_run hrun
  have hserved : ∀ peer, final.receiver.status = .returned peer → peer.config = client.config := by
    intro peer hreturned
    have hknows := hconsistent.knowsReceiver
    rw [hreturned] at hknows
    rcases hknows with ⟨hinitiates, _, _⟩ | ⟨_, _, hconfig⟩
    · cases hinitiates
    · exact hconfig
  refine ⟨?_, hserved⟩
  intro own peer hown hpeer
  rw [hown] at hclient
  rw [hpeer] at hserver
  obtain ⟨_, rfl, _, hownDevice, hownFingerprint⟩ := hclient
  obtain ⟨_, rfl, _, hpeerDevice, hpeerFingerprint⟩ := hserver
  refine ⟨?_, ⟨hownDevice, hownFingerprint⟩, hpeerDevice, hpeerFingerprint⟩
  exact (config_of_run hrun hown hpeer).1.trans (hserved peer hpeer).symm

/-- A side that succeeds has met a peer of its version that holds the certificate it claims,
and two honest sides that succeed have met each other. -/
theorem handshake_agreement :
    (∀ party initiates inputs final,
      Foundation.Run.run (machine party).step (begin initiates) inputs = some final →
        Guarded party initiates inputs final) ∧
      ∀ client server turns final,
        Configuration.run client server (start true false) turns = some final →
          Agreed client server final :=
  ⟨fun _ _ _ _ hrun => guarded_of_run hrun, fun _ _ _ _ hrun => agreed_of_run hrun⟩

/-- A client that expects certificate 2, and the server that holds it. -/
def oneClient : Party where
  deviceId := FixedBytes.filled 16 9
  fingerprint := FixedBytes.filled 32 1
  observed := some (FixedBytes.filled 32 2)
  config := { ConfigMessage.default with chunkSize := 65536 }

def oneServer : Party where
  deviceId := FixedBytes.filled 16 5
  fingerprint := FixedBytes.filled 32 2
  observed := some (FixedBytes.filled 32 1)
  config := .default

def impostor : HelloMessage := { hello oneServer with certFingerprint := FixedBytes.filled 32 3 }

theorem handshake_agreement_once :
    Guarded oneClient true [.proceed, .message (.helloAck impostor)]
        ⟨.failed .clientRecvHelloAck .fingerprintMismatch, fun _ => none⟩ ∧
      ∃ final, Configuration.run oneClient oneServer (start true false) senderFirst = some final ∧
        final.sender.status = .returned (result (hello oneServer) oneClient.config) ∧
        Agreed oneClient oneServer final := by
  refine ⟨handshake_agreement.1 _ _ _ _ rfl, _, rfl, rfl, handshake_agreement.2 _ _ senderFirst _ rfl⟩

end P2PFileTransfer.Session.Agreement
