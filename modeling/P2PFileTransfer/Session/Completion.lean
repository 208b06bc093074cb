import P2PFileTransfer.Foundation.Liveness
import P2PFileTransfer.Session.Agreement

/-!
# How an undisturbed handshake ends

Two sides whose waits do not fail come to an end in whatever order they take their turns.
Both of them succeed when one initiates, the other one answers and each holds the
certificate that the other one observed; otherwise neither does, so no handshake leaves a
session on one side only.
-/

namespace P2PFileTransfer.Session.Completion

open P2PFileTransfer.Foundation.Process
open P2PFileTransfer.Foundation.Liveness
open P2PFileTransfer.Core.Protocol
open P2PFileTransfer.Session.Handshake
open P2PFileTransfer.Session.Configuration

def Undisturbed : Turn → Prop
  | .sender failure | .receiver failure => failure = none

/-- One side initiates, and each side sees the certificate of the other. -/
structure Compatible (near far : Party) (nearInitiates farInitiates : Bool) : Prop where
  roles : nearInitiates = !farInitiates
  nearSees : near.observed = some far.fingerprint
  farSees : far.observed = some near.fingerprint

/-- How a handshake came out that has no turn left. -/
structure Concluded (near far : Party) (nearInitiates farInitiates : Bool)
    (negotiation : Negotiation) : Prop where
  idle : ∀ event, Undisturbed event → step near far negotiation event = none
  both : Compatible near far nearInitiates farInitiates →
    negotiation.sender.status =
        .returned (result (hello far) (if nearInitiates then near.config else far.config)) ∧
      negotiation.receiver.status =
        .returned (result (hello near) (if nearInitiates then near.config else far.config)) ∧
      negotiation.toSender = [] ∧ negotiation.toReceiver = []
  neither : ¬ Compatible near far nearInitiates farInitiates → ∀ outcome,
    negotiation.sender.status ≠ .returned outcome ∧ negotiation.receiver.status ≠ .returned outcome

/-! ## Turns -/

/-- What a turn without a failure does. -/
inductive Turned (party : Party) (state : HandshakeState) (inbox : List Message) :
    HandshakeState → List Message → List Message → Prop where
  | spoke {stage : Stage} {message : Message} (hstatus : state.status = .running stage)
      (haction : action party stage = .send message) :
      Turned party state inbox ⟨resume party stage .done, state.store⟩ inbox [message]
  | heard {stage : Stage} {message : Message} {rest : List Message}
      (hstatus : state.status = .running stage) (haction : action party stage = .receive)
      (hinbox : inbox = message :: rest) :
      Turned party state inbox ⟨resume party stage (.message message), state.store⟩ rest []

section Turns

variable {party : Party} {state next : HandshakeState} {inbox rest sent : List Message}

theorem step_proceed {stage : Stage} {message : Message} (hstatus : state.status = .running stage)
    (haction : action party stage = .send message) :
    (machine party).step state .proceed = some ⟨resume party stage .done, state.store⟩ := by
  refine step_resume hstatus ?_
  change (action party stage).reply _ _ = _
  rw [haction]
  rfl

theorem step_message {stage : Stage} (message : Message) (hstatus : state.status = .running stage)
    (haction : action party stage = .receive) :
    (machine party).step state (.message message) =
      some ⟨resume party stage (.message message), state.store⟩ := by
  refine step_resume hstatus ?_
  change (action party stage).reply _ _ = _
  rw [haction]
  rfl

theorem turn_eq_some_iff :
    turn party state inbox none = some (next, rest, sent) ↔
      Turned party state inbox next rest sent := by
  constructor
  · intro hturn
    unfold turn at hturn
    split at hturn
    case h_2 => cases hturn
    rename_i stage hstatus
    split at hturn
    case h_1 => contradiction
    case h_4 => cases hturn
    case h_2 =>
        rename_i message haction
        rw [step_proceed hstatus haction] at hturn
        cases hturn
        exact .spoke hstatus haction
    case h_3 =>
        rename_i message unread haction
        rw [step_message _ hstatus haction] at hturn
        cases hturn
        exact .heard hstatus haction rfl
  · intro hturned
    cases hturned with
    | spoke hstatus haction =>
        simp only [turn, hstatus, haction, step_proceed hstatus haction, Option.map_some]
    | heard hstatus haction hinbox =>
        subst hinbox
        simp only [turn, hstatus, haction, step_message _ hstatus haction, Option.map_some]

/-- A running side without a turn waits for a message. -/
theorem waits_of_turn_eq_none (hturn : turn party state inbox none = none) {stage : Stage}
    (hstatus : state.status = .running stage) :
    action party stage = .receive ∧ inbox = [] := by
  cases haction : action party stage with
  | send message =>
      rw [turn_eq_some_iff.mpr (.spoke hstatus haction)] at hturn
      cases hturn
  | receive =>
      cases inbox with
      | nil => exact ⟨rfl, rfl⟩
      | cons message rest =>
          rw [turn_eq_some_iff.mpr (.heard hstatus haction rfl)] at hturn
          cases hturn
  | compute | ask | perform _ | openStream _ | awaitStopped | acceptStream =>
      cases stage <;> cases haction

/-! ## Every turn is one of the last four -/

/-- The turns a side has before it at most. -/
def left : StageStatus → Nat
  | .running .clientSendHello | .running .serverRecvHello => 4
  | .running .clientRecvHelloAck | .running (.serverSendHelloAck _) => 3
  | .running (.clientSendConfig _) | .running (.serverRecvConfig _) => 2
  | .running (.clientRecvConfigAck _) | .running (.serverSendConfigAck _ _) => 1
  | .returned _ | .failed _ _ | .panicked _ _ => 0

theorem left_resume_lt {stage : Stage} {reply : Reply Message Bool}
    (hfits : (action party stage).Fits reply) :
    left (resume party stage reply) < left (.running stage) := by
  refine resume_elim (motive := fun stage status => left status < left (.running stage))
    ?sendHello ?helloAck ?sendConfig ?configAck ?hello ?sendAck ?config ?sendConfigAck
    stage reply hfits
  case sendHello => simp [left]
  case helloAck =>
    intro message
    unfold readHelloAck
    split
    · rename_i peer
      cases checkPeer party peer <;> simp [left, Status.ofExcept]
    · simp [left]
    · simp [left]
  case sendConfig => simp [left]
  case configAck =>
    intro peer message
    unfold readConfigAck
    split <;> simp [left]
  case hello =>
    intro message
    unfold readHello
    split
    · rename_i peer
      cases checkPeer party peer <;> simp [left, Status.ofExcept]
    · simp [left]
  case sendAck => simp [left]
  case config =>
    intro peer message
    unfold readConfig
    split <;> simp [left]
  case sendConfigAck => simp [left]

theorem Turned.left_lt (hturned : Turned party state inbox next rest sent) :
    left next.status < left state.status := by
  cases hturned with
  | spoke hstatus haction =>
      rw [hstatus]
      refine left_resume_lt ?_
      rw [haction]
      trivial
  | heard hstatus haction hinbox =>
      rw [hstatus]
      refine left_resume_lt ?_
      rw [haction]
      trivial

end Turns

/-! ## An initiating and an answering side -/

/-- Where the two sides stand, and the messages on their way to each. -/
inductive Exchange (client server : Party) :
    StageStatus → StageStatus → List Message → List Message → Prop where
  | silent : Exchange client server (.running .clientSendHello) (.running .serverRecvHello) [] []
  | greeted : Exchange client server (.running .clientRecvHelloAck) (.running .serverRecvHello)
      [] [.hello (hello client)]
  | turnedAway {error : Error} (hserver : server.observed ≠ some client.fingerprint) :
      Exchange client server (.running .clientRecvHelloAck) (.failed .serverRecvHello error) [] []
  | met (hserver : server.observed = some client.fingerprint) :
      Exchange client server (.running .clientRecvHelloAck)
        (.running (.serverSendHelloAck (hello client))) [] []
  | answered (hserver : server.observed = some client.fingerprint) :
      Exchange client server (.running .clientRecvHelloAck)
        (.running (.serverRecvConfig (hello client))) [.helloAck (hello server)] []
  | withdrawn {error : Error} (hclient : client.observed ≠ some server.fingerprint) :
      Exchange client server (.failed .clientRecvHelloAck error)
        (.running (.serverRecvConfig (hello client))) [] []
  | known (hserver : server.observed = some client.fingerprint)
      (hclient : client.observed = some server.fingerprint) :
      Exchange client server (.running (.clientSendConfig (hello server)))
        (.running (.serverRecvConfig (hello client))) [] []
  | proposed (hserver : server.observed = some client.fingerprint)
      (hclient : client.observed = some server.fingerprint) :
      Exchange client server (.running (.clientRecvConfigAck (hello server)))
        (.running (.serverRecvConfig (hello client))) [] [.config client.config]
  | adopted (hserver : server.observed = some client.fingerprint)
      (hclient : client.observed = some server.fingerprint) :
      Exchange client server (.running (.clientRecvConfigAck (hello server)))
        (.running (.serverSendConfigAck (hello client) client.config)) [] []
  | confirmed (hserver : server.observed = some client.fingerprint)
      (hclient : client.observed = some server.fingerprint) :
      Exchange client server (.running (.clientRecvConfigAck (hello server)))
        (.returned (result (hello client) client.config)) [.configAck] []
  | settled (hserver : server.observed = some client.fingerprint)
      (hclient : client.observed = some server.fingerprint) :
      Exchange client server (.returned (result (hello server) client.config))
        (.returned (result (hello client) client.config)) [] []

section Exchanges

variable {client server : Party} {own peer : StageStatus} {toClient toServer : List Message}
  {state next : HandshakeState} {rest sent : List Message}

theorem checkPeer_hello (party other : Party) :
    checkPeer party (hello other) = .ok () ↔ party.observed = some other.fingerprint := by
  rw [checkPeer_eq_ok_iff]
  exact ⟨fun hboth => hboth.2, fun hobserved => ⟨rfl, hobserved⟩⟩

/-- What an honest HELLO leads to depends on what was observed. -/
theorem checkPeer_hello_cases (party other : Party) :
    checkPeer party (hello other) = .ok () ∧ party.observed = some other.fingerprint ∨
      (∃ error, checkPeer party (hello other) = .error error) ∧
        party.observed ≠ some other.fingerprint := by
  cases hcheck : checkPeer party (hello other) with
  | ok done => exact .inl ⟨rfl, (checkPeer_hello party other).mp hcheck⟩
  | error error =>
      refine .inr ⟨⟨error, rfl⟩, fun hobserved => ?_⟩
      rw [(checkPeer_hello party other).mpr hobserved] at hcheck
      cases hcheck

theorem Exchange.client_turn (hexchange : Exchange client server own peer toClient toServer)
    (hown : state.status = own) (hturned : Turned client state toClient next rest sent) :
    Exchange client server next.status peer rest (toServer ++ sent) := by
  subst hown
  generalize hstatus : state.status = own at hexchange
  cases hturned with
  | spoke hrunning haction =>
      rw [hstatus] at hrunning
      subst hrunning
      cases hexchange with
      | silent =>
          cases haction
          exact .greeted
      | known hserver hclient =>
          cases haction
          exact .proposed hserver hclient
      | _ => cases haction
  | heard hrunning haction hinbox =>
      rw [hstatus] at hrunning
      subst hrunning
      cases hexchange with
      | answered hserver =>
          cases hinbox
          rcases checkPeer_hello_cases client server with ⟨hcheck, hclient⟩ | ⟨⟨error, hcheck⟩, hclient⟩
          · simp only [resume, readHelloAck, hcheck, Status.ofExcept]
            exact .known hserver hclient
          · simp only [resume, readHelloAck, hcheck, Status.ofExcept]
            exact .withdrawn hclient
      | confirmed hserver hclient =>
          cases hinbox
          exact .settled hserver hclient
      | silent | known _ _ => cases haction
      | _ => cases hinbox

theorem Exchange.server_turn (hexchange : Exchange client server own peer toClient toServer)
    (hpeer : state.status = peer) (hturned : Turned server state toServer next rest sent) :
    Exchange client server own next.status (toClient ++ sent) rest := by
  subst hpeer
  generalize hstatus : state.status = peer at hexchange
  cases hturned with
  | spoke hrunning haction =>
      rw [hstatus] at hrunning
      subst hrunning
      cases hexchange with
      | met hserver =>
          cases haction
          exact .answered hserver
      | adopted hserver hclient =>
          cases haction
          exact .confirmed hserver hclient
      | _ => cases haction
  | heard hrunning haction hinbox =>
      rw [hstatus] at hrunning
      subst hrunning
      cases hexchange with
      | greeted =>
          cases hinbox
          rcases checkPeer_hello_cases server client with ⟨hcheck, hserver⟩ | ⟨⟨error, hcheck⟩, hserver⟩
          · simp only [resume, readHello, hcheck, Status.ofExcept]
            exact .met hserver
          · simp only [resume, readHello, hcheck, Status.ofExcept]
            exact .turnedAway hserver
      | proposed hserver hclient =>
          cases hinbox
          exact .adopted hserver hclient
      | met _ | adopted _ _ => cases haction
      | _ => cases hinbox

/-- Two sides that have no turn left have both returned, unless one saw a stranger. -/
theorem Exchange.ends (hexchange : Exchange client server own peer toClient toServer)
    (hown : ∀ stage, own = .running stage → action client stage = .receive ∧ toClient = [])
    (hpeer : ∀ stage, peer = .running stage → action server stage = .receive ∧ toServer = []) :
    (client.observed = some server.fingerprint ∧ server.observed = some client.fingerprint) ∧
        own = .returned (result (hello server) client.config) ∧
        peer = .returned (result (hello client) client.config) ∧ toClient = [] ∧ toServer = [] ∨
      ¬ (client.observed = some server.fingerprint ∧ server.observed = some client.fingerprint) ∧
        ∀ outcome, own ≠ .returned outcome ∧ peer ≠ .returned outcome := by
  cases hexchange with
  | silent => exact absurd (hown _ rfl).1 nofun
  | greeted => exact absurd (hpeer _ rfl).2 (List.cons_ne_nil _ _)
  | turnedAway hserver => exact .inr ⟨fun hboth => hserver hboth.2, fun _ => ⟨nofun, nofun⟩⟩
  | met hserver => exact absurd (hpeer _ rfl).1 nofun
  | answered hserver => exact absurd (hown _ rfl).2 (List.cons_ne_nil _ _)
  | withdrawn hclient => exact .inr ⟨fun hboth => hclient hboth.1, fun _ => ⟨nofun, nofun⟩⟩
  | known hserver hclient => exact absurd (hown _ rfl).1 nofun
  | proposed hserver hclient => exact absurd (hpeer _ rfl).2 (List.cons_ne_nil _ _)
  | adopted hserver hclient => exact absurd (hpeer _ rfl).1 nofun
  | confirmed hserver hclient => exact absurd (hown _ rfl).2 (List.cons_ne_nil _ _)
  | settled hserver hclient => exact .inl ⟨⟨hclient, hserver⟩, rfl, rfl, rfl, rfl⟩

end Exchanges

/-! ## Two initiating sides -/

/-- A side that meets another initiating side gets no further than its HELLO. -/
def Stalled : StageStatus → Prop
  | .running .clientSendHello | .running .clientRecvHelloAck | .failed _ _ => True
  | _ => False

def Greets (message : Message) : Prop := ∃ peer, message = .hello peer

theorem maintains_stalled (party : Party) : Maintains party Stalled Greets Greets := by
  constructor
  · intro stage reply hfits hheard hstalled
    cases stage with
    | clientSendHello =>
        cases reply <;> first | exact hfits.elim | trivial
    | clientRecvHelloAck =>
        cases reply with
        | message message =>
            obtain ⟨peer, rfl⟩ := hheard message rfl
            trivial
        | done | answer _ | value _ | stream _ => exact hfits.elim
    | clientSendConfig _ | clientRecvConfigAck _ | serverRecvHello | serverSendHelloAck _
    | serverRecvConfig _ | serverSendConfigAck _ _ => exact hstalled.elim
  · intro stage error _
    trivial
  · intro stage message hsend hstalled
    cases stage with
    | clientSendHello =>
        cases hsend
        exact ⟨_, rfl⟩
    | clientRecvHelloAck => cases hsend
    | clientSendConfig _ | clientRecvConfigAck _ | serverRecvHello | serverSendHelloAck _
    | serverRecvConfig _ | serverSendConfigAck _ _ => exact hstalled.elim

theorem not_returned_of_stalled {status : StageStatus} (hstalled : Stalled status)
    (outcome : HandshakeResult) : status ≠ .returned outcome := by
  rintro rfl
  exact hstalled

/-! ## Every pair of roles -/

/-- What holds of a negotiation at every point, whoever initiates. -/
def Underway (near far : Party) : Bool → Bool → Negotiation → Prop
  | true, false, negotiation => Exchange near far negotiation.sender.status
      negotiation.receiver.status negotiation.toSender negotiation.toReceiver
  | false, true, negotiation => Exchange far near negotiation.receiver.status
      negotiation.sender.status negotiation.toReceiver negotiation.toSender
  | true, true, negotiation => Joint Stalled Stalled Greets Greets negotiation
  | false, false, negotiation => negotiation = start false false

section Negotiations

variable {near far : Party} {nearInitiates farInitiates : Bool} {negotiation next : Negotiation}
  {event : Turn}

/-- The turn that a step takes, and what it adds on the way to the other side. -/
theorem turned_of_step (hquiet : Undisturbed event)
    (hstep : step near far negotiation event = some next) :
    (∃ own rest sent, Turned near negotiation.sender negotiation.toSender own rest sent ∧
        next = ⟨own, negotiation.receiver, rest, negotiation.toReceiver ++ sent⟩) ∨
      ∃ own rest sent, Turned far negotiation.receiver negotiation.toReceiver own rest sent ∧
        next = ⟨negotiation.sender, own, negotiation.toSender ++ sent, rest⟩ := by
  cases event with
  | sender failure =>
      cases hquiet
      obtain ⟨⟨own, rest, sent⟩, hturn, rfl⟩ := Option.map_eq_some_iff.mp hstep
      exact .inl ⟨own, rest, sent, turn_eq_some_iff.mp hturn, rfl⟩
  | receiver failure =>
      cases hquiet
      obtain ⟨⟨own, rest, sent⟩, hturn, rfl⟩ := Option.map_eq_some_iff.mp hstep
      exact .inr ⟨own, rest, sent, turn_eq_some_iff.mp hturn, rfl⟩

theorem Underway.step (hunderway : Underway near far nearInitiates farInitiates negotiation)
    (hquiet : Undisturbed event)
    (hstep : Configuration.step near far negotiation event = some next) :
    Underway near far nearInitiates farInitiates next := by
  cases nearInitiates with
  | true =>
      cases farInitiates with
      | true => exact Joint.step (maintains_stalled near) (maintains_stalled far) hunderway hstep
      | false =>
          rcases turned_of_step hquiet hstep with
            ⟨own, rest, sent, hturned, rfl⟩ | ⟨own, rest, sent, hturned, rfl⟩
          · exact hunderway.client_turn rfl hturned
          · exact hunderway.server_turn rfl hturned
  | false =>
      cases farInitiates with
      | true =>
          rcases turned_of_step hquiet hstep with
            ⟨own, rest, sent, hturned, rfl⟩ | ⟨own, rest, sent, hturned, rfl⟩
          · exact hunderway.server_turn rfl hturned
          · exact hunderway.client_turn rfl hturned
      | false =>
          cases hunderway
          rcases turned_of_step hquiet hstep with
            ⟨own, rest, sent, hturned, -⟩ | ⟨own, rest, sent, hturned, -⟩
          · cases hturned with
            | spoke hstatus haction =>
                cases hstatus
                cases haction
            | heard hstatus haction hinbox => cases hinbox
          · cases hturned with
            | spoke hstatus haction =>
                cases hstatus
                cases haction
            | heard hstatus haction hinbox => cases hinbox

theorem underway_start : Underway near far nearInitiates farInitiates
    (start nearInitiates farInitiates) := by
  cases nearInitiates <;> cases farInitiates
  · rfl
  · exact .silent
  · exact .silent
  · exact ⟨trivial, trivial, nofun, nofun⟩

/-- The turns both sides have before them at most. -/
def turnsLeft (negotiation : Negotiation) : Nat :=
  left negotiation.sender.status + left negotiation.receiver.status

theorem turnsLeft_lt (hquiet : Undisturbed event)
    (hstep : Configuration.step near far negotiation event = some next) :
    turnsLeft next < turnsLeft negotiation := by
  rcases turned_of_step hquiet hstep with
    ⟨own, rest, sent, hturned, rfl⟩ | ⟨own, rest, sent, hturned, rfl⟩
  · exact Nat.add_lt_add_right hturned.left_lt _
  · exact Nat.add_lt_add_left hturned.left_lt _

theorem concluded_of_over (hunderway : Underway near far nearInitiates farInitiates negotiation)
    (hover : ∀ event, Undisturbed event →
      Configuration.step near far negotiation event = none) :
    Concluded near far nearInitiates farInitiates negotiation := by
  have hnear (stage : Stage) (hstatus : negotiation.sender.status = .running stage) :=
    waits_of_turn_eq_none (Option.map_eq_none_iff.mp (hover (.sender none) rfl)) hstatus
  have hfar (stage : Stage) (hstatus : negotiation.receiver.status = .running stage) :=
    waits_of_turn_eq_none (Option.map_eq_none_iff.mp (hover (.receiver none) rfl)) hstatus
  cases nearInitiates with
  | true =>
      cases farInitiates with
      | true =>
          refine ⟨hover, fun hcompatible => absurd hcompatible.roles nofun, fun _ outcome => ?_⟩
          exact ⟨not_returned_of_stalled hunderway.sender outcome,
            not_returned_of_stalled hunderway.receiver outcome⟩
      | false =>
          rcases hunderway.ends hnear hfar with ⟨hboth, hown, hpeer, hempty⟩ | ⟨hmismatch, hneither⟩
          · refine ⟨hover, fun _ => ⟨hown, hpeer, hempty⟩, fun hincompatible => ?_⟩
            exact absurd ⟨rfl, hboth.1, hboth.2⟩ hincompatible
          · refine ⟨hover, fun hcompatible => ?_, fun _ => hneither⟩
            exact absurd ⟨hcompatible.nearSees, hcompatible.farSees⟩ hmismatch
  | false =>
      cases farInitiates with
      | true =>
          rcases hunderway.ends hfar hnear with
            ⟨hboth, hown, hpeer, htoReceiver, htoSender⟩ | ⟨hmismatch, hneither⟩
          · refine ⟨hover, fun _ => ⟨hpeer, hown, htoSender, htoReceiver⟩, fun hincompatible => ?_⟩
            exact absurd ⟨rfl, hboth.2, hboth.1⟩ hincompatible
          · refine ⟨hover, fun hcompatible => ?_, fun _ outcome => (hneither outcome).symm⟩
            exact absurd ⟨hcompatible.farSees, hcompatible.nearSees⟩ hmismatch
      | false =>
          cases hunderway
          exact ⟨hover, fun hcompatible => absurd hcompatible.roles nofun, fun _ _ => ⟨nofun, nofun⟩⟩

/-- Either there is a turn left or the handshake has come to its end. -/
theorem Underway.open_or_concluded
    (hunderway : Underway near far nearInitiates farInitiates negotiation) :
    Concluded near far nearInitiates farInitiates negotiation ∨
      ∃ event next, Undisturbed event ∧
        Configuration.step near far negotiation event = some next := by
  by_cases hover : ∀ event, Undisturbed event →
      Configuration.step near far negotiation event = none
  · exact .inl (concluded_of_over hunderway hover)
  · push Not at hover
    obtain ⟨event, hquiet, hstep⟩ := hover
    obtain ⟨next, hnext⟩ := Option.ne_none_iff_exists'.mp hstep
    exact .inr ⟨event, next, hquiet, hnext⟩

theorem inevitable_concluded (near far : Party) (nearInitiates farInitiates : Bool) :
    Inevitable (Configuration.step near far) (fun _ event => Undisturbed event)
      (Concluded near far nearInitiates farInitiates) (start nearInitiates farInitiates) :=
  inevitable_of_rank (Underway near far nearInitiates farInitiates) turnsLeft
    (fun _ hunderway => hunderway.open_or_concluded)
    (fun _ _ _ hunderway hquiet hstep => ⟨hunderway.step hquiet hstep, turnsLeft_lt hquiet hstep⟩)
    underway_start

theorem Underway.run {turns : List Turn} {final : Negotiation}
    (hunderway : Underway near far nearInitiates farInitiates negotiation)
    (hquiet : ∀ event ∈ turns, Undisturbed event)
    (hrun : Configuration.run near far negotiation turns = some final) :
    turns.length + turnsLeft final ≤ turnsLeft negotiation ∧
      Underway near far nearInitiates farInitiates final := by
  induction turns generalizing negotiation with
  | nil =>
      cases hrun
      exact ⟨(Nat.zero_add _).le, hunderway⟩
  | cons event rest ih =>
      obtain ⟨next, hstep, hrest⟩ := Option.bind_eq_some_iff.mp hrun
      have hevent := hquiet event List.mem_cons_self
      obtain ⟨hlength, hfinal⟩ := ih (hunderway.step hevent hstep)
        (fun other hother => hquiet other (List.mem_cons_of_mem _ hother)) hrest
      have hlower := turnsLeft_lt hevent hstep
      refine ⟨?_, hfinal⟩
      rw [List.length_cons]
      omega

/-- After any undisturbed turns the handshake has a turn left or is at its end, which comes
after eight turns at most: both sides have their results there, or neither has. -/
theorem both_sides_or_neither {turns : List Turn} {final : Negotiation}
    (hquiet : ∀ event ∈ turns, Undisturbed event)
    (hrun : Configuration.run near far (start nearInitiates farInitiates) turns = some final) :
    turns.length ≤ 8 ∧ (Concluded near far nearInitiates farInitiates final ∨
      ∃ event next, Undisturbed event ∧
        Configuration.step near far final event = some next) := by
  have hstart : turnsLeft (start nearInitiates farInitiates) = 8 := by
    cases nearInitiates <;> cases farInitiates <;> rfl
  obtain ⟨hlength, hfinal⟩ := underway_start.run hquiet hrun
  exact ⟨by omega, hfinal.open_or_concluded⟩

theorem both_sides_or_neither_once : ∃ final,
    Configuration.run Agreement.oneClient Agreement.oneServer (start true false) senderFirst =
        some final ∧
      senderFirst.length ≤ 8 ∧
        (Concluded Agreement.oneClient Agreement.oneServer true false final ∨
          ∃ event next, Undisturbed event ∧
            Configuration.step Agreement.oneClient Agreement.oneServer final event = some next) := by
  refine ⟨_, rfl, @both_sides_or_neither _ _ true false senderFirst _ ?_ rfl⟩
  intro event hevent
  simp only [senderFirst, List.mem_cons, List.not_mem_nil, or_false] at hevent
  rcases hevent with rfl | rfl | rfl | rfl | rfl | rfl | rfl | rfl <;> rfl

end Negotiations

end P2PFileTransfer.Session.Completion
