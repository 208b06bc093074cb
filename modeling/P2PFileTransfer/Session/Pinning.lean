import P2PFileTransfer.Session.Rendezvous

/-!
# Rendezvous sessions and the matched peer

An outbound connection is pinned to the matched fingerprint, an inbound one only has
to come from the expected address.  So a session is the matched peer's exactly when
the race is not decided by an inbound connection from that address with another
certificate: the handshake compares the peer with its own certificate, never with the
match.
-/

namespace P2PFileTransfer.Session.Pinning

open P2PFileTransfer.Foundation.ByteFile
open P2PFileTransfer.Foundation.Process
open P2PFileTransfer.Core.Protocol
open P2PFileTransfer.Session.Handshake
open P2PFileTransfer.Session.Rendezvous

variable {sha256 : Bytes → Digest} {self : Local} {peer : PeerInfo}

/-- The part of a run that belongs to the race. -/
def raceEvents (events : List Event) : List RaceEvent :=
  events.filterMap fun event =>
    match event with
    | .race event => some event
    | _ => none

/-- Every session that comes out of this match and this race is the matched peer's,
whatever is exchanged afterwards. -/
def Pinned (sha256 : Bytes → Digest) (self : Local) (outcome : MatchOutcome)
    (events : List RaceEvent) : Prop :=
  ∀ rest session, raceEvents rest = events →
    Rendezvous.run sha256 self .register (.matched outcome :: rest) = some (.ready session) →
    session.connection.peerFingerprint sha256 = some outcome.peer.fingerprint ∧
      session.peerFingerprint = outcome.peer.fingerprint

/-- Events that leave the race open. -/
def Undecided (peer : PeerInfo) : RaceEvent → Prop
  | .slept => True
  | .inbound (.presented address _ magic) => address ≠ peer.endpoint ∧ magic = protocolMagic
  | .inbound (.failed _) | .outbound _ | .elapsed => False

/-- The race is decided by an inbound connection from the expected address with another
certificate than the matched one. -/
def Hijacked (sha256 : Bytes → Digest) (peer : PeerInfo) (events : List RaceEvent) : Prop :=
  ∃ before presented,
    events = before ++ [.inbound (.presented peer.endpoint presented protocolMagic)] ∧
      (∀ event ∈ before, Undecided peer event) ∧
      fingerprintOf sha256 presented.endEntity ≠ peer.fingerprint

/-! ## One race event -/

/-- An event either leaves the race open, ends it without a connection, or yields a
connection: a pinned outbound one, or an inbound one from the expected address. -/
inductive RaceStepped (sha256 : Bytes → Digest) (peer : PeerInfo) (event : RaceEvent) :
    RaceState → Prop where
  | stays {connecting : Bool} (hopen : Undecided peer event) :
      RaceStepped sha256 peer event (.racing connecting)
  | fails {error : Error} : RaceStepped sha256 peer event (.done (.error error))
  | pinned {connection : Connection}
      (hpinned : connection.peerFingerprint sha256 = some peer.fingerprint) :
      RaceStepped sha256 peer event (.done (.ok connection))
  | inbound {connection : Connection} (presented : Presented)
      (hevent : event = .inbound (.presented peer.endpoint presented protocolMagic))
      (hobserved : connection.peerFingerprint sha256 =
        some (fingerprintOf sha256 presented.endEntity)) :
      RaceStepped sha256 peer event (.done (.ok connection))

theorem raceStepped_connect (outbound : Outbound) :
    RaceStepped sha256 peer (.outbound outbound)
      (.done (connect sha256 peer.endpoint peer.fingerprint outbound)) := by
  cases outbound with
  | failed error => exact .fails
  | presented presented =>
      rw [connect]
      by_cases hmatch : fingerprintOf sha256 presented.endEntity = peer.fingerprint
      · rw [verifyServerCert, if_pos hmatch]
        refine .pinned ?_
        rw [← hmatch]
        rfl
      · rw [verifyServerCert, if_neg hmatch]
        exact .fails

theorem raceStepped_accept {inbound : Inbound} {connecting : Bool} {next : RaceState}
    (hstep : raceStep sha256 peer (.racing connecting) (.inbound inbound) = some next) :
    RaceStepped sha256 peer (.inbound inbound) next := by
  cases inbound with
  | failed error =>
      cases connecting <;> cases hstep <;> exact .fails
  | presented address presented magic =>
      have hturn : (acceptFrom peer.endpoint (.presented address presented magic)).elim
          (some (.racing connecting)) (fun outcome => some (.done outcome)) = some next := by
        rw [← hstep]
        cases connecting <;> rw [raceStep] <;>
          cases acceptFrom peer.endpoint (.presented address presented magic) <;> rfl
      by_cases hmagic : magic = protocolMagic
      · by_cases haddress : address = peer.endpoint
        · subst hmagic haddress
          simp only [acceptFrom, accept, verifyClientCert, peerMatches, if_pos, decide_true] at hturn
          cases hturn
          exact .inbound presented rfl rfl
        · simp only [acceptFrom, accept, verifyClientCert, peerMatches, if_pos hmagic, haddress,
            decide_false, Bool.false_eq_true, if_false] at hturn
          cases hturn
          exact .stays ⟨haddress, hmagic⟩
      · simp only [acceptFrom, accept, verifyClientCert, if_neg hmagic] at hturn
        cases hturn
        exact .fails

theorem raceStepped_of_raceStep {state next : RaceState} {event : RaceEvent}
    (hstep : raceStep sha256 peer state event = some next) : RaceStepped sha256 peer event next := by
  cases state with
  | done outcome => cases event <;> cases hstep
  | racing connecting =>
      cases event with
      | slept =>
          cases connecting <;> cases hstep <;> exact .stays trivial
      | outbound outbound =>
          cases connecting with
          | false => cases hstep
          | true =>
              cases hstep
              exact raceStepped_connect outbound
      | inbound inbound => exact raceStepped_accept hstep
      | elapsed =>
          cases connecting <;> cases hstep <;> exact .fails

theorem raceStep_undecided {event : RaceEvent} (hopen : Undecided peer event) (connecting : Bool) :
    ∃ after, raceStep sha256 peer (.racing connecting) event = some (.racing after) := by
  cases event with
  | slept => cases connecting <;> exact ⟨true, rfl⟩
  | outbound _ | elapsed => exact hopen.elim
  | inbound inbound =>
      cases inbound with
      | failed error => exact hopen.elim
      | presented address presented magic =>
          obtain ⟨haddress, hmagic⟩ := hopen
          refine ⟨connecting, ?_⟩
          cases connecting <;>
            simp only [raceStep, acceptFrom, accept, verifyClientCert, peerMatches, if_pos hmagic,
              haddress, decide_false, Bool.false_eq_true, if_false]

theorem raceStep_inbound (presented : Presented) (connecting : Bool) :
    raceStep sha256 peer (.racing connecting)
        (.inbound (.presented peer.endpoint presented protocolMagic)) =
      some (.done (.ok { remoteAddress := peer.endpoint
                         peerIdentity := some (presented.endEntity :: presented.intermediates) })) := by
  cases connecting <;>
    simp only [raceStep, acceptFrom, accept, verifyClientCert, peerMatches, if_pos, decide_true]

/-! ## From the race to the session -/

/-- Once the race is over a run feeds the handshake only, and a session keeps the
connection and the fingerprint its handshake checked. -/
theorem ready_of_handshake {connection : Connection} {state : HandshakeState} {rest : List Event}
    {session : P2PSession}
    (hchecked : Checked (party sha256 self connection) state.status)
    (hrun : Rendezvous.run sha256 self (.handshake peer connection state) rest =
      some (.ready session)) :
    raceEvents rest = [] ∧
      session.connection.peerFingerprint sha256 = connection.peerFingerprint sha256 ∧
      connection.peerFingerprint sha256 = some session.peerFingerprint := by
  induction rest generalizing state with
  | nil => cases hrun
  | cons event rest ih =>
      obtain ⟨next, hstep, hrest⟩ := Option.bind_eq_some_iff.mp hrun
      cases event with
      | matched _ | helloSent | race _ | fail _ => cases hstep
      | control input =>
          obtain ⟨after, hmachine, rfl⟩ := Option.map_eq_some_iff.mp hstep
          have hafter := checked_inductive.step hmachine hchecked
          rw [finishHandshake] at hrest
          split at hrest
          · rename_i outcome hreturned
            rw [hreturned] at hafter
            cases rest with
            | nil =>
                cases hrest
                exact ⟨rfl, rfl, hafter⟩
            | cons event rest => cases event <;> cases hrest
          · cases rest with
            | nil => cases hrest
            | cons event rest => cases event <;> cases hrest
          · exact ih hafter hrest
          · exact ih hafter hrest

/-- A session comes out of a race whose last event decided it. -/
theorem ready_of_race {connecting : Bool} {rest : List Event} {session : P2PSession}
    (hrun : Rendezvous.run sha256 self (.race peer (.racing connecting)) rest =
      some (.ready session)) :
    (∃ before decisive, raceEvents rest = before ++ [decisive] ∧
        (∀ event ∈ before, Undecided peer event) ∧
        (session.peerFingerprint = peer.fingerprint ∨ ∃ presented,
          decisive = .inbound (.presented peer.endpoint presented protocolMagic) ∧
          session.peerFingerprint = fingerprintOf sha256 presented.endEntity)) ∧
      session.connection.peerFingerprint sha256 = some session.peerFingerprint := by
  induction rest generalizing connecting with
  | nil => cases hrun
  | cons event rest ih =>
      obtain ⟨next, hstep, hrest⟩ := Option.bind_eq_some_iff.mp hrun
      cases event with
      | matched _ | helloSent | control _ | fail _ => cases hstep
      | race event =>
          obtain ⟨state, hrace, rfl⟩ := Option.map_eq_some_iff.mp hstep
          have hevents : raceEvents (.race event :: rest) = event :: raceEvents rest := rfl
          have hdone : ∀ connection,
              Rendezvous.run sha256 self
                (.handshake peer connection (begin (initiates self peer))) rest =
                  some (.ready session) →
              raceEvents rest = [] ∧
                session.connection.peerFingerprint sha256 = connection.peerFingerprint sha256 ∧
                connection.peerFingerprint sha256 = some session.peerFingerprint := by
            intro connection
            refine ready_of_handshake ?_
            cases initiates self peer <;> trivial
          cases raceStepped_of_raceStep hrace with
          | stays hopen =>
              obtain ⟨⟨before, decisive, hsplit, hbefore, hdecisive⟩, hobserved⟩ := ih hrest
              refine ⟨⟨event :: before, decisive, ?_, ?_, hdecisive⟩, hobserved⟩
              · rw [hevents, hsplit, List.cons_append]
              · intro other hother
                rcases List.mem_cons.mp hother with rfl | hlater
                · exact hopen
                · exact hbefore other hlater
          | fails =>
              cases rest with
              | nil => cases hrest
              | cons event rest => cases event <;> cases hrest
          | pinned hpinned =>
              obtain ⟨hnil, hconnection, hchecked⟩ := hdone _ hrest
              refine ⟨⟨[], event, ?_, nofun, Or.inl ?_⟩, hconnection.trans hchecked⟩
              · rw [hevents, hnil, List.nil_append]
              · rw [hpinned] at hchecked
                exact (Option.some.inj hchecked).symm
          | inbound presented hevent hobserved =>
              obtain ⟨hnil, hconnection, hchecked⟩ := hdone _ hrest
              refine ⟨⟨[], event, ?_, nofun, Or.inr ⟨presented, hevent, ?_⟩⟩,
                hconnection.trans hchecked⟩
              · rw [hevents, hnil, List.nil_append]
              · rw [hobserved] at hchecked
                exact (Option.some.inj hchecked).symm

/-- The hellos to a relay are no part of the race. -/
theorem ready_of_joinRelay {left : Nat} {rest : List Event} {session : P2PSession}
    (hrun : Rendezvous.run sha256 self (.joinRelay peer left) rest = some (.ready session)) :
    ∃ later, raceEvents later = raceEvents rest ∧
      Rendezvous.run sha256 self (startRace self peer) later = some (.ready session) := by
  induction rest generalizing left with
  | nil => cases hrun
  | cons event rest ih =>
      obtain ⟨next, hstep, hrest⟩ := Option.bind_eq_some_iff.mp hrun
      cases event with
      | matched _ | race _ | control _ => cases left <;> cases hstep
      | fail error =>
          cases left <;> cases hstep <;>
            (cases rest with
            | nil => cases hrest
            | cons event rest => cases event <;> cases hrest)
      | helloSent =>
          cases left with
          | zero => cases hstep
          | succ left =>
              cases hstep
              by_cases hlast : left = 0
              · rw [if_pos hlast] at hrest
                exact ⟨rest, rfl, hrest⟩
              · rw [if_neg hlast] at hrest
                exact ih hrest

theorem ready_of_matched {outcome : MatchOutcome} {rest : List Event} {session : P2PSession}
    (hrun : Rendezvous.run sha256 self .register (.matched outcome :: rest) =
      some (.ready session)) :
    ∃ later, raceEvents later = raceEvents rest ∧
      Rendezvous.run sha256 self (startRace self outcome.peer) later = some (.ready session) := by
  cases outcome with
  | direct peer => exact ⟨rest, rfl, hrun⟩
  | relay info => exact ready_of_joinRelay hrun

/-- Without a hijack the session is the matched peer's. -/
theorem pinned_of_not_hijacked {outcome : MatchOutcome} {events : List RaceEvent}
    (hsafe : ¬ Hijacked sha256 outcome.peer events) : Pinned sha256 self outcome events := by
  intro rest session hrace hrun
  obtain ⟨later, hlater, hstarted⟩ := ready_of_matched hrun
  obtain ⟨⟨before, decisive, hsplit, hbefore, hdecisive⟩, hobserved⟩ := ready_of_race hstarted
  have hmatched : session.peerFingerprint = outcome.peer.fingerprint := by
    rcases hdecisive with hpinned | ⟨presented, rfl, hforeign⟩
    · exact hpinned
    · by_contra hne
      refine hsafe ⟨before, presented, ?_, hbefore, hforeign ▸ hne⟩
      rw [← hrace, ← hlater, hsplit]
  exact ⟨hobserved.trans (congrArg some hmatched), hmatched⟩

/-! ## A third party completes the session -/

/-- What a peer with this certificate sends in the handshake. -/
def peerHello (fingerprint : Fingerprint) : HelloMessage where
  protocolVersion := protocolVersion
  minVersion := minProtocolVersion
  deviceId := FixedBytes.filled 16 0
  certFingerprint := fingerprint

def peerScript (initiates : Bool) (fingerprint : Fingerprint) : List HandshakeInput :=
  if initiates then
    [.proceed, .message (.helloAck (peerHello fingerprint)), .proceed, .message .configAck]
  else
    [.message (.hello (peerHello fingerprint)), .proceed, .message (.config .default), .proceed]

/-- Any certificate holder completes the handshake under its own fingerprint. -/
theorem run_peerScript {party : Party} {fingerprint : Fingerprint}
    (hobserved : party.observed = some fingerprint) (initiates : Bool) :
    ∃ final outcome, Foundation.Run.run (machine party).step (begin initiates)
        (peerScript initiates fingerprint) = some final ∧
      final.status = .returned outcome ∧ outcome.peerFingerprint = fingerprint := by
  have hpeer : checkPeer party (peerHello fingerprint) = .ok () :=
    checkPeer_eq_ok_iff.mpr ⟨rfl, hobserved⟩
  cases initiates with
  | true =>
      have hread : readHelloAck party (.helloAck (peerHello fingerprint)) =
          .running (.clientSendConfig (peerHello fingerprint)) := by
        rw [readHelloAck, hpeer]
        rfl
      refine ⟨⟨.returned (result (peerHello fingerprint) party.config), fun _ => none⟩, _, ?_, rfl, rfl⟩
      change Foundation.Run.run (machine party).step
        ⟨readHelloAck party (.helloAck (peerHello fingerprint)), fun _ => none⟩
        [.proceed, .message .configAck] = _
      rw [hread]
      rfl
  | false =>
      have hread : readHello party (.hello (peerHello fingerprint)) =
          .running (.serverSendHelloAck (peerHello fingerprint)) := by
        rw [readHello, hpeer]
        rfl
      refine ⟨⟨.returned (result (peerHello fingerprint) .default), fun _ => none⟩, _, ?_, rfl, rfl⟩
      change Foundation.Run.run (machine party).step
        ⟨readHello party (.hello (peerHello fingerprint)), fun _ => none⟩
        [.proceed, .message (.config .default), .proceed] = _
      rw [hread]
      rfl

/-- The control part of a run is the handshake. -/
theorem run_control {connection : Connection} {state final : HandshakeState}
    {inputs : List HandshakeInput} {outcome : HandshakeResult}
    (hrun : Foundation.Run.run (machine (party sha256 self connection)).step state inputs = some final)
    (hstate : ¬ state.status.Halted) (hfinal : final.status = .returned outcome) :
    Rendezvous.run sha256 self (.handshake peer connection state) (inputs.map .control) =
      some (finishHandshake self peer connection final) := by
  induction inputs generalizing state with
  | nil =>
      cases hrun
      rw [hfinal] at hstate
      exact absurd trivial hstate
  | cons input rest ih =>
      obtain ⟨next, hstep, hrest⟩ := Option.bind_eq_some_iff.mp hrun
      have hcontrol : step sha256 self (.handshake peer connection state) (.control input) =
          some (finishHandshake self peer connection next) := by
        rw [step, hstep]
        rfl
      rw [List.map_cons, Rendezvous.run, Foundation.Run.run_cons_of_step hcontrol]
      cases hstatus : next.status with
      | running stage =>
          have hphase : finishHandshake self peer connection next = .handshake peer connection next := by
            rw [finishHandshake, hstatus]
          rw [hphase]
          exact ih hrest (by rw [hstatus]; exact id)
      | returned _ | failed _ _ | panicked _ _ =>
          cases rest with
          | nil =>
              cases hrest
              rfl
          | cons input rest =>
              rw [Foundation.Run.run_cons, Machine.step, hstatus] at hrest
              cases hrest

theorem run_undecided {before : List RaceEvent} (hbefore : ∀ event ∈ before, Undecided peer event)
    (connecting : Bool) :
    ∃ after, Rendezvous.run sha256 self (.race peer (.racing connecting)) (before.map .race) =
      some (.race peer (.racing after)) := by
  induction before generalizing connecting with
  | nil => exact ⟨connecting, rfl⟩
  | cons event rest ih =>
      obtain ⟨middle, hmiddle⟩ :=
        @raceStep_undecided sha256 peer event (hbefore event List.mem_cons_self) connecting
      obtain ⟨after, hafter⟩ := ih (fun other hother => hbefore other (List.mem_cons_of_mem _ hother))
        middle
      refine ⟨after, ?_⟩
      have hstep : step sha256 self (.race peer (.racing connecting)) (.race event) =
          some (.race peer (.racing middle)) := by
        rw [step, hmiddle]
        rfl
      rw [List.map_cons, Rendezvous.run, Foundation.Run.run_cons_of_step hstep]
      exact hafter

theorem raceEvents_append (first second : List Event) :
    raceEvents (first ++ second) = raceEvents first ++ raceEvents second :=
  List.filterMap_append

theorem raceEvents_map_race (events : List RaceEvent) : raceEvents (events.map .race) = events := by
  rw [raceEvents, List.filterMap_map]
  exact List.filterMap_some

theorem raceEvents_map_control (inputs : List HandshakeInput) :
    raceEvents (inputs.map .control) = [] := by
  rw [raceEvents, List.filterMap_map]
  exact List.filterMap_none inputs

theorem run_matched (outcome : MatchOutcome) :
    ∃ hellos, raceEvents hellos = [] ∧
      Rendezvous.run sha256 self .register (.matched outcome :: hellos) =
        some (startRace self outcome.peer) := by
  cases outcome with
  | direct peer => exact ⟨[], rfl, rfl⟩
  | relay info => exact ⟨[.helloSent, .helloSent, .helloSent], rfl, rfl⟩

/-- The third party that decides the race ends up as the peer of the session. -/
theorem not_pinned_of_hijacked {outcome : MatchOutcome} {events : List RaceEvent}
    (hhijacked : Hijacked sha256 outcome.peer events) : ¬ Pinned sha256 self outcome events := by
  obtain ⟨before, presented, rfl, hbefore, hforeign⟩ := hhijacked
  let foreign := fingerprintOf sha256 presented.endEntity
  let connection : Connection :=
    { remoteAddress := outcome.peer.endpoint
      peerIdentity := some (presented.endEntity :: presented.intermediates) }
  obtain ⟨hellos, hhellos, hmatched⟩ := @run_matched sha256 self outcome
  obtain ⟨connecting, hrace⟩ :=
    @run_undecided sha256 self outcome.peer before hbefore (initiates self outcome.peer)
  have hobserved : (party sha256 self connection).observed = some foreign := rfl
  obtain ⟨final, result, hscript, hreturned, hclaimed⟩ :=
    run_peerScript hobserved (initiates self outcome.peer)
  have hopen : ¬ (begin (initiates self outcome.peer)).status.Halted := id
  have hcontrol := @run_control sha256 self outcome.peer connection _ final _ result hscript hopen
    hreturned
  have hdecided : Rendezvous.run sha256 self (.race outcome.peer (.racing connecting))
      [.race (.inbound (.presented outcome.peer.endpoint presented protocolMagic))] =
      some (.handshake outcome.peer connection (begin (initiates self outcome.peer))) := by
    rw [Rendezvous.run, Foundation.Run.run_cons, step, raceStep_inbound]
    rfl
  let session : P2PSession :=
    { connection := connection
      deviceId := self.deviceId
      handshake := result
      initiatorTarget := none }
  have hready : finishHandshake self outcome.peer connection final = .ready session := by
    rw [finishHandshake, hreturned]
  let rest : List Event := hellos ++ (before.map .race ++
    ([.race (.inbound (.presented outcome.peer.endpoint presented protocolMagic))] ++
      (peerScript (initiates self outcome.peer) foreign).map .control))
  have hrun : Rendezvous.run sha256 self .register (.matched outcome :: rest) =
      some (.ready session) := by
    refine (Foundation.Run.run_append_of_run hmatched _).trans ?_
    refine (Foundation.Run.run_append_of_run hrace _).trans ?_
    refine (Foundation.Run.run_append_of_run hdecided _).trans ?_
    exact hcontrol.trans (congrArg some hready)
  have hevents : raceEvents rest = before ++
      [.inbound (.presented outcome.peer.endpoint presented protocolMagic)] := by
    rw [raceEvents_append, hhellos, raceEvents_append, raceEvents_map_race, raceEvents_append,
      raceEvents_map_control]
    rfl
  intro hpinned
  obtain ⟨_, hpeer⟩ := hpinned rest session hevents hrun
  exact hforeign (hclaimed.symm.trans hpeer)

/-! ## The exact condition -/

/-- A session is the matched peer's, in every run with this match and this race, exactly
when no inbound connection from the expected address with another certificate decides
the race. -/
theorem pinned_iff (sha256 : Bytes → Digest) (self : Local) (outcome : MatchOutcome)
    (events : List RaceEvent) :
    Pinned sha256 self outcome events ↔ ¬ Hijacked sha256 outcome.peer events := by
  constructor
  · exact fun hpinned hhijacked => not_pinned_of_hijacked hhijacked hpinned
  · exact pinned_of_not_hijacked

/-- A hash for runs on fixed inputs: the certificate itself, cut or filled to 32 bytes. -/
def padded (bytes : Bytes) : Digest :=
  ⟨(bytes ++ List.replicate 32 0).take 32, by simp⟩

def relayMatch : MatchOutcome :=
  .relay
    { relayEndpoint := { ip := [192, 0, 2, 1], port := 7000 }
      sessionToken := []
      peerFingerprint := padded [1]
      peerDeviceId := FixedBytes.filled 16 1 }

def someone : Local where
  deviceId := FixedBytes.filled 16 2
  fingerprint := padded [2]
  config := .default

/-- A third party that reaches the socket through the relay before the matched peer. -/
def thirdParty : RaceEvent :=
  .inbound (.presented { ip := [192, 0, 2, 1], port := 7000 }
    { endEntity := [3], intermediates := [] } protocolMagic)

theorem third_party_not_pinned :
    ¬ ∀ (sha256 : Bytes → Digest) (self : Local) (outcome : MatchOutcome) (events : List RaceEvent),
      Pinned sha256 self outcome events := by
  intro hclaim
  have hpinned := hclaim padded someone relayMatch [thirdParty]
  obtain ⟨_, hpeer⟩ := hpinned
    ([.helloSent, .helloSent, .helloSent, .race thirdParty] ++
      (peerScript false (padded [3])).map .control) _ rfl rfl
  exact absurd hpeer (by decide)

end P2PFileTransfer.Session.Pinning
