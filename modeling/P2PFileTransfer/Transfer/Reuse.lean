import P2PFileTransfer.Transfer.Leftovers

/-!
# One connection for many transfers

The listening side calls `receive_to` in a loop, and the other side may call `send_path` on
the same session again and again; nothing keeps the two sides in the same transfer.  On a
connection that holds every transfer still goes as it would on a connection of its own.
-/

namespace P2PFileTransfer.Transfer.Reuse

open P2PFileTransfer.Foundation.ByteFile
open P2PFileTransfer.Foundation.FileSystem
open P2PFileTransfer.Foundation.FixedWidth
open P2PFileTransfer.Foundation.Process
open P2PFileTransfer.Foundation.Run
open P2PFileTransfer.Foundation.UnixPath
open P2PFileTransfer.Core
open P2PFileTransfer.Core.Protocol
open P2PFileTransfer.Core.TransferFile
open P2PFileTransfer.Core.TransferFolder
open P2PFileTransfer.Core.SendPath
open P2PFileTransfer.Core.FolderSender (returnedError)
open P2PFileTransfer.Transfer.Completion
open P2PFileTransfer.Transfer.Concord
open P2PFileTransfer.Transfer.Conversation
open P2PFileTransfer.Transfer.Honesty
open P2PFileTransfer.Transfer.Leftovers
open P2PFileTransfer.Transfer.Lockstep
open P2PFileTransfer.Transfer.Network
open P2PFileTransfer.Transfer.ReceiverLane
open P2PFileTransfer.Transfer.Script
open P2PFileTransfer.Transfer.SenderLane
open P2PFileTransfer.Transfer.Streams

/-! ## The two sessions and what they share -/

/-- One connection and the call that is on, or was the last, at each of its ends. -/
structure Session where
  setup : Setup
  /-- How many calls of `send_path` there have been. -/
  sends : Nat
  /-- How many calls of `receive_to` there have been. -/
  receives : Nat
  world : Network.State

inductive Event where
  | side (event : Network.Event)
  /-- `send_path` again, with a state file that does not exist yet. -/
  | send (basePath : OsStr) (source : Store) (freshId newId : Uuid) (durationMs : Nat)
  /-- `receive_to` again. -/
  | receive (outputDir : OsStr)

def step (session : Session) : Event → Option Session
  | .side event =>
      (Network.step session.setup session.world event).map fun world =>
        { session with world := world }
  | .send basePath source freshId newId durationMs =>
      match session.world.sender with
      | .sending _ _ (.running _) | .retrying _ _ _ => none
      | _ =>
          match openCall true basePath .absent freshId newId durationMs
              session.world.link.config with
          | .error _ => none
          | .ok (call, memory) =>
              some
                { setup := { session.setup with basePath := basePath, source := source }
                  sends := session.sends + 1
                  receives := session.receives
                  world :=
                    { session.world with
                      sender := startAttempt call 0 memory
                      saved := .absent } }
  | .receive outputDir =>
      if session.world.receiver.status.Halted then
        some
          { setup := { session.setup with outputDir := outputDir }
            sends := session.sends
            receives := session.receives + 1
            world :=
              { session.world with
                receiver := FolderReceiver.start session.world.receiver.store } }
      else none

abbrev run : Session → List Event → Option Session := Foundation.Run.run step

/-- Nothing fails from outside, the scans find lists of files of the kind, and a side calls
again only when its last call went well. -/
def Calm (good : List FileMetadata → Prop) (session : Session) : Event → Prop
  | .side event => Smooth session.setup session.world event ∧ HonestEvent session.setup good event
  | .send _ _ _ _ _ => ∃ call attempt status,
      session.world.sender = .sending call attempt status ∧ Served status
  | .receive _ => ∃ summary, session.world.receiver.status = .returned summary

/-- A transfer of such files on a connection of its own on which nothing fails. -/
def Alone (good : List FileMetadata → Prop) (setup : Setup) (world : Network.State) : Prop :=
  ∃ store config freshId newId durationMs begun events,
    Network.step setup (initial setup store) (.start config freshId newId durationMs) =
        some begun ∧
      Along (Network.step setup) (Smooth setup) begun events ∧
      (∀ event ∈ events, HonestEvent setup good event) ∧
      Network.run setup begun events = some world

variable {good : List FileMetadata → Prop} {setup : Setup} {world next own : Network.State}
  {session after : Session}

theorem alone_start {store : Store} {config : ConfigMessage} {freshId newId : Uuid}
    {durationMs : Nat}
    (hstart : Network.step setup (initial setup store) (.start config freshId newId durationMs) =
      some world) : Alone good setup world :=
  ⟨store, config, freshId, newId, durationMs, world, [], hstart, trivial, nofun, rfl⟩

theorem alone_step (halone : Alone good setup world) {event : Network.Event}
    (hsmooth : Smooth setup world event) (hhonest : HonestEvent setup good event)
    (hstep : Network.step setup world event = some next) : Alone good setup next := by
  obtain ⟨store, config, freshId, newId, durationMs, begun, events, hstart, halong, hall, hrun⟩ :=
    halone
  refine ⟨store, config, freshId, newId, durationMs, begun, events ++ [event], hstart, ?_, ?_, ?_⟩
  · refine along_append halong fun middle hmiddle => ?_
    cases hmiddle.symm.trans hrun
    exact ⟨hsmooth, fun _ _ => trivial⟩
  · intro other hother
    rcases List.mem_append.mp hother with hbefore | hlast
    · exact hall other hbefore
    · rw [List.mem_singleton.mp hlast]
      exact hhonest
  · exact (run_append_of_run hrun [event]).trans (run_cons_of_step hstep [])

/-- What holds on every connection holds on one's own. -/
theorem cleared_of_alone (halone : Alone good setup world) (hdecode : Invertible setup.codec) :
    Cleared setup world := by
  obtain ⟨store, config, freshId, newId, durationMs, begun, events, hstart, halong, _, hrun⟩ :=
    halone
  have hsound := @sound_initial setup Acceptable nofun store
  refine invariant_along (Cleared setup)
    (fun state event next hbefore hallowed hstep => cleared_step hdecode hbefore hallowed hstep)
    halong ?_ hrun
  cases networkStepped_of_step hstart with
  | start call _ hchunkSize =>
      refine cleared_connect hsound hchunkSize 0 ?_ fun hfiles => absurd rfl hfiles
      exact soundMemory_fresh nofun _ _

/-! ## A transfer in what is shared -/

/-- What is under way on a connection, with what belongs to one transfer in the middle. -/
structure Shows (earlier later : List Message) (past : List (Nat × Bytes)) (own link : Link) :
    Prop where
  config : own.config = link.config
  forward : own.forward = link.forward
  backward : own.backward = link.backward
  toReceiver : link.toReceiver = earlier ++ own.toReceiver ++ later
  toSender : own.toSender = link.toSender
  opened : link.opened = past ++ own.opened

variable {earlier later : List Message} {past : List (Nat × Bytes)}

/-- What a sender does to the shared connection it does to its own. -/
theorem own_feedSender {shared link : Link} {point : FolderSender.Point} {action : Action Message}
    {move : Move FolderSender.Scan} {input : FolderSender.SenderInput} {mine : Link}
    (hshows : Shows earlier [] past mine shared)
    (hmove : ∀ error written, move ≠ .fail error written)
    (hdelivered : action = .awaitStopped → mine.delivered = true)
    (hfed : SenderFed shared point action move input link) :
    ∃ left, mine.feedSender point action move = some (input, left) ∧
      Shows earlier [] past left link ∧ link.accepted = shared.accepted ∧
      left.accepted = mine.accepted := by
  obtain ⟨hconfig, hforward, hbackward, htoReceiver, htoSender, hopened⟩ := hshows
  rw [List.append_nil] at htoReceiver
  cases hfed with
  | fail _ => exact absurd rfl (hmove _ _)
  | answer | compute | perform =>
      refine ⟨mine, rfl, ⟨hconfig, hforward, hbackward, ?_, htoSender, hopened⟩, rfl, rfl⟩
      rw [List.append_nil, htoReceiver]
  | @send message =>
      refine ⟨mine.sendForward message, rfl, ⟨hconfig, hforward, hbackward, ?_, htoSender, hopened⟩,
        rfl, rfl⟩
      change (if shared.forward then shared.toReceiver ++ [message] else shared.toReceiver) =
        earlier ++ (if mine.forward then mine.toReceiver ++ [message] else mine.toReceiver) ++ []
      rw [hforward, htoReceiver, List.append_nil]
      split
      · rw [List.append_assoc]
      · rfl
  | @receive message rest hhead =>
      have hmine : mine.toSender = message :: rest := htoSender.trans hhead
      refine ⟨{ mine with toSender := rest }, ?_,
        ⟨hconfig, hforward, hbackward, ?_, rfl, hopened⟩, rfl, rfl⟩
      · simp only [Link.feedSender, hmine]
      · rw [List.append_nil]
        exact htoReceiver
  | @openStream raw =>
      refine ⟨mine.openStream (streamFile point.stage) raw, rfl,
        ⟨hconfig, hforward, hbackward, ?_, htoSender, ?_⟩, rfl, rfl⟩
      · rw [List.append_nil]
        exact htoReceiver
      · change (if shared.forward then shared.opened ++ [_] else shared.opened) =
          past ++ if mine.forward then mine.opened ++ [_] else mine.opened
        rw [hforward, hopened]
        split
        · rw [List.append_assoc]
        · rfl
  | awaitStopped _ =>
      refine ⟨mine, ?_, ⟨hconfig, hforward, hbackward, ?_, htoSender, hopened⟩, rfl, rfl⟩
      · simp only [Link.feedSender, hdelivered rfl, if_true]
      · rw [List.append_nil, htoReceiver]

/-- What a receiver finds on the shared connection it finds on its own. -/
theorem own_feedReceiver {shared link : Link} {action : Action Message} {move : Move Bool}
    {input : FolderReceiver.ReceiverInput} {mine : Link}
    (hshows : Shows [] later past mine shared)
    (haccepted : shared.accepted = past.length + mine.accepted)
    (hmove : ∀ error written, move ≠ .fail error written)
    (hwaits : action = .receive → later = [] ∨ mine.toReceiver ≠ [])
    (hfed : ReceiverFed shared action move input link) :
    ∃ left, mine.feedReceiver action move = some (input, left) ∧ Shows [] later past left link ∧
      link.accepted = past.length + left.accepted := by
  obtain ⟨hconfig, hforward, hbackward, htoReceiver, htoSender, hopened⟩ := hshows
  rw [List.nil_append] at htoReceiver
  cases hfed with
  | fail _ => exact absurd rfl (hmove _ _)
  | answer | compute | perform =>
      exact ⟨mine, rfl, ⟨hconfig, hforward, hbackward, htoReceiver, htoSender, hopened⟩, haccepted⟩
  | @send message =>
      refine ⟨mine.sendBackward message, rfl,
        ⟨hconfig, hforward, hbackward, htoReceiver, ?_, hopened⟩, haccepted⟩
      change (if mine.backward then mine.toSender ++ [message] else mine.toSender) =
        if shared.backward then shared.toSender ++ [message] else shared.toSender
      rw [hbackward, htoSender]
  | @receive message rest hhead =>
      obtain ⟨others, hmine, hrest⟩ : ∃ others, mine.toReceiver = message :: others ∧
          rest = others ++ later := by
        rw [hhead] at htoReceiver
        cases hhere : mine.toReceiver with
        | nil =>
            rcases hwaits rfl with hnone | hsome
            · rw [hhere, hnone] at htoReceiver
              cases htoReceiver
            · exact absurd hhere hsome
        | cons first others =>
            rw [hhere] at htoReceiver
            obtain ⟨hfirst, hrest⟩ := List.cons.inj htoReceiver
            exact ⟨others, by rw [hfirst], hrest⟩
      refine ⟨{ mine with toReceiver := others }, ?_,
        ⟨hconfig, hforward, hbackward, hrest, htoSender, hopened⟩, haccepted⟩
      simp only [Link.feedReceiver, hmine]
  | @acceptStream file raw hhead =>
      have hmine : mine.opened[mine.accepted]? = some (file, raw) := by
        rw [hopened, haccepted, List.getElem?_append_right (Nat.le_add_right _ _),
          Nat.add_sub_cancel_left] at hhead
        exact hhead
      refine ⟨{ mine with accepted := mine.accepted + 1 }, ?_,
        ⟨hconfig, hforward, hbackward, htoReceiver, htoSender, hopened⟩, ?_⟩
      · simp only [Link.feedReceiver, hmine]
      · change shared.accepted + 1 = past.length + (mine.accepted + 1)
        rw [haccepted, Nat.add_assoc]

/-- Neither the configuration nor the state of the connection changes. -/
structure SameWire (link after : Link) : Prop where
  config : after.config = link.config
  forward : after.forward = link.forward
  backward : after.backward = link.backward

theorem sameWire_of_senderFed {link after : Link} {point : FolderSender.Point}
    {action : Action Message} {move : Move FolderSender.Scan} {input : FolderSender.SenderInput}
    (hfed : SenderFed link point action move input after) :
    SameWire link after ∧ after.toSender <:+ link.toSender := by
  cases hfed with
  | receive hhead =>
      refine ⟨⟨rfl, rfl, rfl⟩, ?_⟩
      rw [hhead]
      exact List.suffix_cons _ _
  | fail _ | answer | compute | perform | send | openStream | awaitStopped _ =>
      exact ⟨⟨rfl, rfl, rfl⟩, List.suffix_refl _⟩

theorem sameWire_of_receiverFed {link after : Link} {action : Action Message} {move : Move Bool}
    {input : FolderReceiver.ReceiverInput} (hfed : ReceiverFed link action move input after) :
    SameWire link after := by
  cases hfed <;> exact ⟨rfl, rfl, rfl⟩

theorem senderSession_own {shared mine : Link} (hconfig : mine.config = shared.config)
    (call : Call) : senderSession setup mine call = senderSession setup shared call := by
  unfold senderSession
  rw [hconfig]

theorem receiverSession_own {shared mine : Link} (hconfig : mine.config = shared.config) :
    receiverSession setup mine = receiverSession setup shared := by
  unfold receiverSession
  rw [hconfig]

/-- A step of the sender is one on its own connection, whoever listens there. -/
theorem own_sender {move : Move FolderSender.Scan} (hsender : own.sender = world.sender)
    (hshows : Shows earlier [] past own.link world.link)
    (hdelivered : ∀ call attempt point task, own.sender = .sending call attempt (.running point) →
      point.stage = .awaitStopped task → own.link.delivered = true)
    (hsmooth : Smooth setup world (.sender move))
    (hstep : Network.step setup world (.sender move) = some next) :
    ∃ sender link left, next = { world with sender := sender, link := link } ∧
      SameWire world.link link ∧ link.toSender <:+ world.link.toSender ∧
      Shows earlier [] past left link ∧ link.accepted = world.link.accepted ∧
      left.accepted = own.link.accepted ∧
      ∀ outputDir receiver,
        Smooth { setup with outputDir := outputDir } { own with receiver := receiver }
            (.sender move) ∧
          Network.step { setup with outputDir := outputDir } { own with receiver := receiver }
              (.sender move) =
            some { own with sender := sender, receiver := receiver, link := left } := by
  have hmove := smooth_sender hsmooth
  cases senderStepped_of_step hstep with
  | @intro call attempt point input link after hphase hfed hmachine =>
      have hmine := hsender.trans hphase
      have hsession := @senderSession_own setup _ _ hshows.config call
      have hwaits : FolderSender.action (senderSession setup world.link call) point =
          .awaitStopped → own.link.delivered = true := by
        intro haction
        obtain ⟨memory, stage⟩ := point
        cases stage with
        | awaitStopped task => exact hdelivered call attempt _ task hmine rfl
        | begin | scan | sendInfo _ | recvReady | fileHead _ | openSource _ | chunkHead _ =>
            cases haction
        | readChunk _ _ _ | openStream _ _ | sendChecksum _ _ | recvChecksum _ _ | sendComplete =>
            cases haction
      obtain ⟨left, hfeed, hleft, haccepted, hsame⟩ := own_feedSender hshows hmove hwaits hfed
      obtain ⟨hwire, hsuffix⟩ := sameWire_of_senderFed hfed
      refine ⟨_, link, left, rfl, hwire, hsuffix, hleft, haccepted, hsame,
        fun outputDir receiver => ⟨?_, ?_⟩⟩
      · cases move with
        | proceed => trivial
        | fail _ _ => exact hsmooth
        | answer scan =>
            obtain ⟨hscans, found, hfound, hframe⟩ := hsmooth
            refine ⟨hscans, found, hfound, fun other again status hother => ?_⟩
            have hfits := hframe other again status (hsender.symm.trans hother)
            rw [← @senderSession_own setup _ _ hshows.config other] at hfits
            exact hfits
      · rw [← hsession] at hfeed hmachine
        have hthere : own.link.feedSender point (FolderSender.action
            (senderSession { setup with outputDir := outputDir } own.link call) point) move =
              some (input, left) := hfeed
        have hruns : (FolderSender.machine
            (senderSession { setup with outputDir := outputDir } own.link call)).step
              ⟨.running point, setup.source⟩ input = some after := hmachine
        simp only [Network.step, stepSender, hmine, hthere, hruns, Option.map_some]

/-- A step of the receiver is one on its own connection, whoever speaks there. -/
theorem own_receiver {move : Move Bool} (hreceiver : own.receiver = world.receiver)
    (hshows : Shows [] later past own.link world.link)
    (haccepted : world.link.accepted = past.length + own.link.accepted)
    (hwaits : ReceiverBlocked setup own → later = [])
    (hsmooth : Smooth setup world (.receiver move))
    (hstep : Network.step setup world (.receiver move) = some next) :
    ∃ received link left, next = { world with receiver := received, link := link } ∧
      SameWire world.link link ∧ Shows [] later past left link ∧
      link.accepted = past.length + left.accepted ∧
      Smooth setup own (.receiver move) ∧
      Network.step setup own (.receiver move) =
        some { own with receiver := received, link := left } := by
  have hmove := smooth_receiver hsmooth
  cases receiverStepped_of_step hstep with
  | @intro point input link received hstatus hfed hmachine =>
      have hmine : own.receiver.status = .running point := by rw [hreceiver, hstatus]
      have hsession := @receiverSession_own setup _ _ hshows.config
      have hfinds : FolderReceiver.action (receiverSession setup world.link) point = .receive →
          later = [] ∨ own.link.toReceiver ≠ [] := by
        intro haction
        by_cases hnone : own.link.toReceiver = []
        · refine Or.inl (hwaits ⟨point, hmine, ?_⟩)
          rw [hsession, haction]
          exact hnone
        · exact Or.inr hnone
      obtain ⟨left, hfeed, hleft, hsame⟩ := own_feedReceiver hshows haccepted hmove hfinds hfed
      refine ⟨received, link, left, rfl, sameWire_of_receiverFed hfed, hleft, hsame, ?_, ?_⟩
      · cases move with
        | proceed | answer _ => trivial
        | fail _ _ => exact hsmooth
      · rw [← hsession] at hfeed hmachine
        rw [← hreceiver] at hmachine
        simp only [Network.step, stepReceiver, hmine, hfeed, hmachine, Option.map_some]

/-- A receiver that waits for the next transfer needs nothing of the connection. -/
theorem unread_receiver {point : FolderReceiver.Point} {move : Move Bool}
    (hstatus : world.receiver.status = .running point) (hunread : Unread point)
    (hnone : world.link.toReceiver = []) (hsmooth : Smooth setup world (.receiver move))
    (hstep : Network.step setup world (.receiver move) = some next) :
    ∃ received, next = { world with receiver := received } ∧
      received.status = .running .recvInfo ∧
      ∀ other mine, receiverSession other mine.link = receiverSession setup world.link →
        mine.receiver = world.receiver → Smooth other mine (.receiver move) ∧
          Network.step other mine (.receiver move) = some { mine with receiver := received } := by
  have hmove := smooth_receiver hsmooth
  cases receiverStepped_of_step hstep with
  | @intro here input link received hhere hfed hmachine =>
      cases hstatus.symm.trans hhere
      have hnext := status_of_unread hunread hnone hstatus hmove hfed hmachine
      rcases eq_of_unread hunread with rfl | rfl
      · change ReceiverFed _ (.perform _) _ _ _ at hfed
        cases hfed with
        | fail _ => exact absurd rfl (hmove _ _)
        | perform =>
            refine ⟨received, rfl, hnext, fun other mine hsession hreceiver => ⟨trivial, ?_⟩⟩
            have hmine : mine.receiver.status = .running .prepare := by rw [hreceiver, hstatus]
            have hfeed : mine.link.feedReceiver
                (FolderReceiver.action (receiverSession other mine.link) .prepare) .proceed =
                  some (.proceed, mine.link) := rfl
            rw [← hsession, ← hreceiver] at hmachine
            simp only [Network.step, stepReceiver, hmine, hfeed, hmachine, Option.map_some]
      · rcases taken_of_fed hmove hfed with ⟨_, _, _, hhead⟩ | ⟨hother, _, _⟩
        · rw [hnone] at hhead
          cases hhead
        · exact absurd rfl hother

/-! ## How the calls lie on the connection -/

/-- Every transfer goes as on a connection of its own: both sides are in the same one, or one
of them has gone on to the next. -/
inductive Resembles (good : List FileMetadata → Prop) (session : Session) : Prop
  | together {past : List (Nat × Bytes)} {own : Network.State}
      (hcalls : session.sends = session.receives) (halone : Alone good session.setup own)
      (hsender : own.sender = session.world.sender)
      (hreceiver : own.receiver = session.world.receiver)
      (hshows : Shows [] [] past own.link session.world.link)
      (haccepted : session.world.link.accepted = past.length + own.link.accepted) :
      Resembles good session
  | senderAhead {past : List (Nat × Bytes)} {basePath : OsStr} {source : Store}
      {last own : Network.State} {call : Call} {attempt : Nat} {status : FolderSender.PointStatus}
      (hcalls : session.sends = session.receives + 1)
      (hlast : Alone good { session.setup with basePath := basePath, source := source } last)
      (hsending : last.sender = .sending call attempt status) (hserved : Served status)
      (hreceiver : last.receiver = session.world.receiver)
      (halone : ∀ outputDir store, Alone good { session.setup with outputDir := outputDir }
        { own with receiver := FolderReceiver.start store })
      (hsender : own.sender = session.world.sender) (hunspoken : own.link.toSender = [])
      (huntaken : own.link.accepted = 0)
      (hlasts : Shows [] own.link.toReceiver past last.link session.world.link)
      (hshows : Shows last.link.toReceiver [] (past ++ last.link.opened) own.link
        session.world.link)
      (haccepted : session.world.link.accepted = past.length + last.link.accepted) :
      Resembles good session
  | receiverAhead {past : List (Nat × Bytes)} {outputDir : OsStr} {store : Store}
      {last : Network.State} {summary : FolderReceiver.TransferSummary}
      {point : FolderReceiver.Point} (hcalls : session.receives = session.sends + 1)
      (hlast : Alone good { session.setup with outputDir := outputDir } last)
      (hsender : last.sender = session.world.sender)
      (hreturned : last.receiver.status = .returned summary)
      (hreceiver : session.world.receiver.status = .running point) (hunread : Unread point)
      (halone : ∀ basePath source freshId newId durationMs begun,
        Network.step { session.setup with basePath := basePath, source := source }
            (initial { session.setup with basePath := basePath, source := source } store)
            (.start session.world.link.config freshId newId durationMs) = some begun →
          Alone good { session.setup with basePath := basePath, source := source }
            { begun with receiver := session.world.receiver })
      (hshows : Shows [] [] past last.link session.world.link)
      (haccepted : session.world.link.accepted = past.length + last.link.accepted) :
      Resembles good session

theorem delivered_of_paired (hpaired : Paired setup world) {call : Call} {attempt : Nat}
    {point : FolderSender.Point} {task : FolderSender.FileTask}
    (hsender : world.sender = .sending call attempt (.running point))
    (hstage : point.stage = .awaitStopped task) : world.link.delivered = true := by
  cases hpaired.exchange with
  | early hother hearly _ _ _ _ =>
      cases hsender.symm.trans hother
      rw [hstage] at hearly
      exact hearly.elim
  | opened _ hother _ _ hspeaks _ =>
      cases hsender.symm.trans hother
      exact hspeaks.2 task hstage

/-- Before Ready no stream is opened. -/
theorem opened_of_unready (hpaired : Paired setup world) {point : FolderReceiver.Point}
    (hreceiver : world.receiver.status = .running point) (hunready : Unready point) :
    world.link.opened = [] := by
  cases hpaired.exchange with
  | early _ _ _ hsilent _ _ => exact (hpaired.holding.flows.quiet hsilent).1
  | opened _ _ _ _ _ hlistens =>
      unfold Listens at hlistens
      rw [hreceiver] at hlistens
      exact hlistens.2.2 hunready

/-- Behind a call that went well the receiver does not wait in vain. -/
theorem not_blocked_of_served (hcleared : Cleared setup world) {call : Call} {attempt : Nat}
    {status : FolderSender.PointStatus} (hsender : world.sender = .sending call attempt status)
    (hserved : Served status) : ¬ReceiverBlocked setup world := by
  cases status with
  | running _ | panicked _ _ => exact hserved.elim
  | returned memory => exact free_of_returned hcleared.paired hsender
  | failed last error =>
      rintro ⟨point, hreceiver, _⟩
      have hhalted := hcleared.declined call attempt last error hsender hserved
      rw [hreceiver] at hhalted
      exact hhalted

/-! ## A step of the sender -/

theorem resembles_sender (hdecode : Invertible session.setup.codec)
    (hresembles : Resembles good session) {move : Move FolderSender.Scan}
    (hsmooth : Smooth session.setup session.world (.sender move))
    (hhonest : HonestEvent session.setup good (.sender move))
    (hstep : Network.step session.setup session.world (.sender move) = some next) :
    Resembles good { session with world := next } := by
  cases hresembles with
  | @together past own hcalls halone hsender hreceiver hshows haccepted =>
      have hcleared := cleared_of_alone halone hdecode
      obtain ⟨sender, link, left, rfl, _, _, hleft, hsame, hkept, hown⟩ :=
        own_sender hsender hshows
          (fun _ _ _ _ hphase hstage => delivered_of_paired hcleared.paired hphase hstage)
          hsmooth hstep
      obtain ⟨hmine, htakes⟩ := hown session.setup.outputDir own.receiver
      refine .together hcalls (alone_step halone hmine hhonest htakes) rfl hreceiver hleft ?_
      change link.accepted = past.length + left.accepted
      rw [hsame, hkept, haccepted]
  | @senderAhead past basePath source last own call attempt status hcalls hlast hsending hserved
      hreceiver halone hsender hunspoken huntaken hlasts hshows haccepted =>
      have hfresh := cleared_of_alone (halone [] fun _ => none) hdecode
      obtain ⟨sender, link, left, rfl, hwire, hsuffix, hleft, hsame, hkept, hown⟩ :=
        own_sender hsender hshows
          (fun call attempt point task hphase hstage =>
            @delivered_of_paired _ { own with receiver := FolderReceiver.start fun _ => none }
              hfresh.paired call attempt point task hphase hstage)
          hsmooth hstep
      have halone' : ∀ outputDir store, Alone good { session.setup with outputDir := outputDir }
          { own with sender := sender, link := left, receiver := FolderReceiver.start store } := by
        intro outputDir store
        obtain ⟨hmine, htakes⟩ := hown outputDir (FolderReceiver.start store)
        exact alone_step (halone outputDir store) hmine hhonest htakes
      have hquiet : link.toSender = [] := by
        rw [← hshows.toSender, hunspoken] at hsuffix
        exact List.suffix_nil.mp hsuffix
      have hnone : left.opened = [] :=
        opened_of_unready (cleared_of_alone (halone' [] fun _ => none) hdecode).paired rfl trivial
      refine @Resembles.senderAhead good _ past basePath source last
        { own with sender := sender, link := left } call attempt status hcalls hlast hsending
        hserved hreceiver halone' rfl (hleft.toSender.trans hquiet) (hkept.trans huntaken) ?_ hleft
        (hsame.trans haccepted)
      refine ⟨hlasts.config.trans hwire.config.symm, hlasts.forward.trans hwire.forward.symm,
        hlasts.backward.trans hwire.backward.symm, ?_, ?_, ?_⟩
      · have htoReceiver := hleft.toReceiver
        rw [List.append_nil] at htoReceiver
        exact htoReceiver
      · rw [hlasts.toSender, ← hshows.toSender, hunspoken]
        exact hquiet.symm
      · rw [hleft.opened, hnone, List.append_nil]
  | @receiverAhead past outputDir store last summary point hcalls hlast hsender hreturned hreceiver
      hunread halone hshows haccepted =>
      have hcleared := cleared_of_alone hlast hdecode
      obtain ⟨sender, link, left, rfl, hwire, _, hleft, hsame, hkept, hown⟩ :=
        own_sender hsender hshows
          (fun _ _ _ _ hphase hstage => delivered_of_paired hcleared.paired hphase hstage)
          hsmooth hstep
      obtain ⟨hmine, htakes⟩ := hown outputDir last.receiver
      refine @Resembles.receiverAhead good _ past outputDir store
        { last with sender := sender, link := left } summary point hcalls
        (alone_step hlast hmine hhonest htakes) rfl hreturned hreceiver hunread ?_ hleft ?_
      · intro basePath source freshId newId durationMs begun hstart
        rw [hwire.config] at hstart
        exact halone basePath source freshId newId durationMs begun hstart
      · change link.accepted = past.length + left.accepted
        rw [hsame, hkept, haccepted]

/-! ## A step of the receiver -/

theorem resembles_receiver (hdecode : Invertible session.setup.codec)
    (hresembles : Resembles good session) {move : Move Bool}
    (hsmooth : Smooth session.setup session.world (.receiver move))
    (hstep : Network.step session.setup session.world (.receiver move) = some next) :
    Resembles good { session with world := next } := by
  cases hresembles with
  | @together past own hcalls halone hsender hreceiver hshows haccepted =>
      obtain ⟨received, link, left, rfl, _, hleft, hsame, hmine, htakes⟩ :=
        own_receiver hreceiver hshows haccepted (fun _ => rfl) hsmooth hstep
      exact .together hcalls (alone_step halone hmine trivial htakes) hsender rfl hleft hsame
  | @senderAhead past basePath source last own call attempt status hcalls hlast hsending hserved
      hreceiver halone hsender hunspoken huntaken hlasts hshows haccepted =>
      have hcleared := cleared_of_alone hlast hdecode
      have hthere : Network.step { session.setup with basePath := basePath, source := source }
          session.world (.receiver move) = some next := hstep
      have hallowed : Smooth { session.setup with basePath := basePath, source := source }
          session.world (.receiver move) := by
        cases move with
        | proceed | answer _ => trivial
        | fail _ _ => exact hsmooth
      obtain ⟨received, link, left, rfl, hwire, hleft, hsame, hmine, htakes⟩ :=
        own_receiver hreceiver hlasts haccepted
          (fun hblocked => absurd hblocked (not_blocked_of_served hcleared hsending hserved))
          hallowed hthere
      have hlast' := alone_step hlast hmine trivial htakes
      have hquiet : left.toSender = [] :=
        ((cleared_of_alone hlast' hdecode).served call attempt status hsending hserved).empty
      have hfresh := cleared_of_alone (halone [] fun _ => none) hdecode
      have hnone : own.link.opened = [] :=
        @opened_of_unready _ { own with receiver := FolderReceiver.start fun _ => none }
          hfresh.paired .prepare rfl trivial
      refine @Resembles.senderAhead good _ past basePath source
        { last with receiver := received, link := left } own call attempt status hcalls hlast'
        hsending hserved rfl halone hsender hunspoken huntaken hleft ?_ hsame
      refine ⟨hshows.config.trans hwire.config.symm, hshows.forward.trans hwire.forward.symm,
        hshows.backward.trans hwire.backward.symm, ?_, ?_, ?_⟩
      · rw [List.append_nil]
        exact hleft.toReceiver
      · rw [hunspoken]
        exact hquiet.symm.trans hleft.toSender
      · rw [hnone, List.append_nil]
        exact hleft.opened
  | @receiverAhead past outputDir store last summary point hcalls hlast hsender hreturned hreceiver
      hunread halone hshows haccepted =>
      have hcleared := cleared_of_alone hlast hdecode
      have hempty : session.world.link.toReceiver = [] := by
        rw [hshows.toReceiver, hcleared.received summary hreturned]
        rfl
      obtain ⟨received, rfl, hnext, hown⟩ :=
        unread_receiver hreceiver hunread hempty hsmooth hstep
      refine @Resembles.receiverAhead good _ past outputDir store last summary .recvInfo hcalls
        hlast hsender hreturned hnext trivial ?_ hshows haccepted
      intro basePath source freshId newId durationMs begun hstart
      have hbegun := halone basePath source freshId newId durationMs begun hstart
      have hconfig : begun.link.config = session.world.link.config := by
        cases networkStepped_of_step hstart with
        | start _ _ _ => rfl
      have hsession : receiverSession
          { session.setup with basePath := basePath, source := source } begun.link =
            receiverSession session.setup session.world.link :=
        @receiverSession_own { session.setup with basePath := basePath, source := source } _ _
          hconfig
      obtain ⟨hmine, htakes⟩ := hown { session.setup with basePath := basePath, source := source }
        { begun with receiver := session.world.receiver } hsession rfl
      exact alone_step hbegun hmine trivial htakes

/-! ## The next call -/

/-- A fresh connection for a call that finds no state file. -/
theorem start_initial (store : Store) {config : ConfigMessage}
    (hchunkSize : config.chunkSize = setup.chunkSize) (freshId newId : Uuid) (durationMs : Nat) :
    Network.step setup (initial setup store) (.start config freshId newId durationMs) =
      some (connect (initial setup store) config
        { transferId := chooseTransferId (loadState .absent freshId config) newId
          durationMs := durationMs } 0 (loadState .absent freshId config)) := by
  have hready : (initial setup store).receiver.status.Halted ∧
      config.chunkSize = setup.chunkSize := ⟨trivial, hchunkSize⟩
  simp only [Network.step, openCall, if_true, hready, and_self]
  rfl

/-- What the next call of `send_path` starts with. -/
theorem eq_of_send {basePath : OsStr} {source : Store} {freshId newId : Uuid} {durationMs : Nat}
    (hcalm : Calm good session (.send basePath source freshId newId durationMs))
    (hstep : step session (.send basePath source freshId newId durationMs) = some after) :
    after =
      { setup := { session.setup with basePath := basePath, source := source }
        sends := session.sends + 1
        receives := session.receives
        world :=
          { session.world with
            sender := startAttempt
              { transferId := chooseTransferId
                  (loadState .absent freshId session.world.link.config) newId
                durationMs := durationMs } 0 (loadState .absent freshId session.world.link.config)
            saved := .absent } } := by
  obtain ⟨call, attempt, status, hsender, hserved⟩ := hcalm
  simp only [step, hsender] at hstep
  cases status with
  | running _ | panicked _ _ => exact hserved.elim
  | returned _ | failed _ _ => exact (Option.some.inj hstep).symm

theorem resembles_send (hdecode : Invertible session.setup.codec)
    (hresembles : Resembles good session) {basePath : OsStr} {source : Store}
    {freshId newId : Uuid} {durationMs : Nat}
    (hcalm : Calm good session (.send basePath source freshId newId durationMs))
    (hstep : step session (.send basePath source freshId newId durationMs) = some after) :
    Resembles good after := by
  cases eq_of_send hcalm hstep
  obtain ⟨call, attempt, status, hsending, hserved⟩ := hcalm
  cases hresembles with
  | @together past own hcalls halone hsender hreceiver hshows haccepted =>
      have hcleared := cleared_of_alone halone hdecode
      have hempty := (hcleared.served call attempt status (hsender.trans hsending) hserved).empty
      have hchunkSize : session.world.link.config.chunkSize = session.setup.chunkSize :=
        hshows.config ▸ hcleared.paired.holding.sound.chunkSize
      refine @Resembles.senderAhead good _ past session.setup.basePath session.setup.source own
        (connect (initial session.setup session.world.receiver.store) session.world.link.config _ 0
          (loadState .absent freshId session.world.link.config)) call attempt status
        (congrArg (· + 1) hcalls) halone (hsender.trans hsending) hserved hreceiver
        (fun outputDir store => ?_) rfl rfl rfl hshows ?_ haccepted
      · exact alone_start (@start_initial
          { session.setup with basePath := basePath, source := source, outputDir := outputDir }
          store _ hchunkSize freshId newId durationMs)
      · refine ⟨rfl, hcleared.paired.forward.symm.trans hshows.forward,
          hcleared.paired.backward.symm.trans hshows.backward, ?_,
          hempty.symm.trans hshows.toSender, ?_⟩
        · change _ = own.link.toReceiver ++ [] ++ []
          rw [List.append_nil]
          exact hshows.toReceiver
        · exact hshows.opened.trans (List.append_nil _).symm
  | @senderAhead past _ _ last own _ _ _ hcalls hlast _ _ hreceiver halone hsender hunspoken
      huntaken hlasts hshows haccepted =>
      have hcleared := cleared_of_alone (halone [] fun _ => none) hdecode
      have hhushed := hcleared.served call attempt status (hsender.trans hsending) hserved
      exact absurd trivial (hhushed.ready .prepare rfl)
  | @receiverAhead past outputDir store last summary point hcalls hlast hsender hreturned hreceiver
      hunread halone hshows haccepted =>
      have hcleared := cleared_of_alone hlast hdecode
      have hempty := (hcleared.served call attempt status (hsender.trans hsending) hserved).empty
      have hchunkSize : session.world.link.config.chunkSize = session.setup.chunkSize :=
        hshows.config ▸ hcleared.paired.holding.sound.chunkSize
      have hstart := @start_initial
        { session.setup with basePath := basePath, source := source } store _ hchunkSize freshId
        newId durationMs
      refine @Resembles.together good _ (past ++ last.link.opened) _ hcalls.symm
        (halone basePath source freshId newId durationMs _ hstart) rfl rfl ?_ ?_
      · refine ⟨rfl, hcleared.paired.forward.symm.trans hshows.forward,
          hcleared.paired.backward.symm.trans hshows.backward, ?_,
          hempty.symm.trans hshows.toSender, ?_⟩
        · rw [hshows.toReceiver, hcleared.received summary hreturned]
          rfl
        · exact hshows.opened.trans (List.append_nil _).symm
      · change session.world.link.accepted = (past ++ last.link.opened).length + 0
        rw [haccepted, consumed_of_returned hcleared.paired hreturned, List.length_append,
          Nat.add_zero]

theorem eq_of_receive {outputDir : OsStr}
    (hstep : step session (.receive outputDir) = some after) :
    after =
      { setup := { session.setup with outputDir := outputDir }
        sends := session.sends
        receives := session.receives + 1
        world :=
          { session.world with
            receiver := FolderReceiver.start session.world.receiver.store } } := by
  rw [step] at hstep
  split at hstep
  · exact (Option.some.inj hstep).symm
  · cases hstep

theorem resembles_receive (hdecode : Invertible session.setup.codec)
    (hresembles : Resembles good session) {outputDir : OsStr}
    (hcalm : Calm good session (.receive outputDir))
    (hstep : step session (.receive outputDir) = some after) : Resembles good after := by
  cases eq_of_receive hstep
  obtain ⟨result, hresult⟩ := hcalm
  cases hresembles with
  | @together past own hcalls halone hsender hreceiver hshows haccepted =>
      have hreturned : own.receiver.status = .returned result := by rw [hreceiver, hresult]
      refine @Resembles.receiverAhead good _ past session.setup.outputDir
        session.world.receiver.store own result .prepare (congrArg (· + 1) hcalls.symm) halone
        hsender hreturned rfl trivial ?_ hshows haccepted
      intro basePath source freshId newId durationMs begun hstart
      have halone := @alone_start good _ _ _ _ _ _ _ hstart
      cases networkStepped_of_step hstart with
      | start _ _ _ => exact halone
  | @senderAhead past basePath source last own call attempt status hcalls hlast hsending hserved
      hreceiver halone hsender hunspoken huntaken hlasts hshows haccepted =>
      have hcleared := cleared_of_alone hlast hdecode
      have hreturned : last.receiver.status = .returned result := by rw [hreceiver, hresult]
      refine @Resembles.together good _ (past ++ last.link.opened) _ hcalls
        (halone outputDir session.world.receiver.store) hsender rfl ?_ ?_
      · rw [hcleared.received result hreturned] at hshows
        exact hshows
      · change session.world.link.accepted = (past ++ last.link.opened).length + own.link.accepted
        rw [haccepted, consumed_of_returned hcleared.paired hreturned, List.length_append, huntaken,
          Nat.add_zero]
  | receiverAhead _ _ _ _ hreceiver _ _ _ _ => cases hresult.symm.trans hreceiver

/-! ## Every moment -/

theorem resembles_step (hdecode : Invertible session.setup.codec)
    (hresembles : Resembles good session) {event : Event} (hcalm : Calm good session event)
    (hstep : step session event = some after) :
    Resembles good after ∧ after.setup.codec = session.setup.codec := by
  cases event with
  | send basePath source freshId newId durationMs =>
      refine ⟨resembles_send hdecode hresembles hcalm hstep, ?_⟩
      rw [eq_of_send hcalm hstep]
  | receive outputDir =>
      refine ⟨resembles_receive hdecode hresembles hcalm hstep, ?_⟩
      rw [eq_of_receive hstep]
  | side event =>
      obtain ⟨next, hnext, rfl⟩ := Option.map_eq_some_iff.mp hstep
      refine ⟨?_, rfl⟩
      cases event with
      | sender move => exact resembles_sender hdecode hresembles hcalm.1 hcalm.2 hnext
      | receiver move => exact resembles_receiver hdecode hresembles hcalm.1 hnext
      | start _ _ _ _ | loseForward | loseBackward | save _ | reconnect _ | finish _ =>
          exact False.elim hcalm.1

/-- What the two sides can tell of a connection that they use again and again. -/
structure Orderly (session : Session) : Prop where
  sends_le : session.sends ≤ session.receives + 1
  receives_le : session.receives ≤ session.sends + 1
  senderPlain : ∀ call attempt point error,
    session.world.sender = .sending call attempt (.failed point error) →
      (returnedError point error).isProtocol = false
  receiverPlain : ∀ point error, session.world.receiver.status = .failed point error →
    error.isProtocol = false
  /-- Between two transfers nothing is under way. -/
  clean : ∀ call attempt status summary, session.world.sender = .sending call attempt status →
    Served status → session.world.receiver.status = .returned summary →
      session.sends = session.receives → session.world.link.toSender = [] ∧
        session.world.link.toReceiver = [] ∧
        session.world.link.accepted = session.world.link.opened.length

theorem orderly_of_resembles (hdecode : Invertible session.setup.codec)
    (hresembles : Resembles good session) : Orderly session := by
  cases hresembles with
  | @together past own hcalls halone hsender hreceiver hshows haccepted =>
      have hcleared := cleared_of_alone halone hdecode
      refine ⟨by omega, by omega, fun _ _ _ _ hfailed => ?_, fun _ _ hfailed => ?_, ?_⟩
      · exact senderPlain_of_paired hcleared.paired (hsender.trans hfailed)
      · exact receiverPlain_of_paired hcleared.paired (by rw [hreceiver, hfailed])
      · intro call attempt status summary hsending hserved hresult _
        have hreturned : own.receiver.status = .returned summary := by rw [hreceiver, hresult]
        have hempty := (hcleared.served call attempt status (hsender.trans hsending) hserved).empty
        refine ⟨hshows.toSender.symm.trans hempty, ?_, ?_⟩
        · rw [hshows.toReceiver, hcleared.received summary hreturned]
          rfl
        · rw [haccepted, consumed_of_returned hcleared.paired hreturned, hshows.opened,
            List.length_append]
  | @senderAhead past basePath source last own call attempt status hcalls hlast hsending hserved
      hreceiver halone hsender hunspoken huntaken hlasts hshows haccepted =>
      have hpaired := (cleared_of_alone (halone [] fun _ => none) hdecode).paired
      refine ⟨by omega, by omega, fun _ _ _ _ hfailed => ?_, fun _ _ hfailed => ?_,
        fun _ _ _ _ _ _ _ hsame => by omega⟩
      · exact senderPlain_of_paired hpaired (hsender.trans hfailed)
      · exact receiverPlain_of_paired (cleared_of_alone hlast hdecode).paired
          (by rw [hreceiver, hfailed])
  | @receiverAhead past outputDir store last summary point hcalls hlast hsender hreturned hreceiver
      hunread halone hshows haccepted =>
      have hpaired := (cleared_of_alone hlast hdecode).paired
      refine ⟨by omega, by omega, fun _ _ _ _ hfailed => ?_, fun _ _ hfailed => ?_,
        fun _ _ _ _ _ _ _ hsame => by omega⟩
      · exact senderPlain_of_paired hpaired (hsender.trans hfailed)
      · cases hreceiver.symm.trans hfailed

theorem resembles_run (hdecode : Invertible setup.codec) {store : Store} {config : ConfigMessage}
    {freshId newId : Uuid} {durationMs : Nat}
    (hstart : Network.step setup (initial setup store) (.start config freshId newId durationMs) =
      some world)
    {events : List Event} (hcalm : Along step (Calm good) ⟨setup, 1, 1, world⟩ events)
    {final : Session} (hrun : run ⟨setup, 1, 1, world⟩ events = some final) :
    Resembles good final ∧ final.setup.codec = setup.codec := by
  have hfirst : Resembles good ⟨setup, 1, 1, world⟩ :=
    @Resembles.together good ⟨setup, 1, 1, world⟩ [] world rfl (alone_start hstart) rfl rfl
      ⟨rfl, rfl, rfl, (List.append_nil _).symm, rfl, rfl⟩ (Nat.zero_add _).symm
  refine invariant_along
    (fun session : Session => Resembles good session ∧ session.setup.codec = setup.codec)
    (fun state event next hbefore hallowed hstep => ?_) hcalm ⟨hfirst, rfl⟩ hrun
  obtain ⟨hnext, hcodec⟩ := resembles_step (hbefore.2 ▸ hdecode) hbefore.1 hallowed hstep
  exact ⟨hnext, hcodec.trans hbefore.2⟩

/-- However the calls of the two sides interleave, each transfer goes as on a connection of its
own. -/
theorem reused_connection (hdecode : Invertible setup.codec) {store : Store}
    {config : ConfigMessage} {freshId newId : Uuid} {durationMs : Nat}
    (hstart : Network.step setup (initial setup store) (.start config freshId newId durationMs) =
      some world)
    {events : List Event} (hcalm : Along step (Calm good) ⟨setup, 1, 1, world⟩ events)
    {final : Session} (hrun : run ⟨setup, 1, 1, world⟩ events = some final) :
    Resembles good final ∧ Orderly final := by
  obtain ⟨hresembles, hcodec⟩ := resembles_run hdecode hstart hcalm hrun
  exact ⟨hresembles, orderly_of_resembles (hcodec ▸ hdecode) hresembles⟩

/-- On a connection of its own a sender that has sent everything has delivered everything. -/
theorem delivered_of_alone (halone : Alone Separate setup world)
    (hdecode : Invertible setup.codec) (hpreimage : NoSecondPreimage setup) {call : Call}
    {attempt : Nat} {memory : FolderTransferState}
    (hreturned : world.sender = .sending call attempt (.returned memory)) {index : Nat}
    (hindex : index < memory.files.length) :
    Delivered setup world.receiver.store memory.files index := by
  obtain ⟨store, config, freshId, newId, durationMs, begun, events, hstart, _, hhonest, hrun⟩ :=
    halone
  have hall : ∀ event ∈ .start config freshId newId durationMs :: events,
      HonestEvent setup Separate event := by
    intro event hevent
    rcases List.mem_cons.mp hevent with rfl | hlater
    · trivial
    · exact hhonest event hlater
  have hkept := kept_run hdecode hpreimage hall ((run_cons_of_step hstart events).trans hrun)
  have hlength : nextItem memory = memory.files.length :=
    (hkept.sound.sender call attempt _ hreturned).2.2
  refine hkept.delivered memory ?_ index (hlength ▸ hindex)
  rw [hreturned]
  rfl

def talk (count : Nat) : List Event := List.replicate count (.side (.sender .proceed))

def listen (count : Nat) : List Event := List.replicate count (.side (.receiver .proceed))

def scanLetter : Event := .side (.sender (.answer (.file [103] 2 0)))

/-- Up to the last message of the first transfer, which is still under way. -/
def firstLetter : List Event :=
  talk 1 ++ listen 2 ++ [.side (.receiver (.answer true))] ++ listen 2 ++ talk 13 ++ listen 15 ++
    talk 3

def sendAgain : Event :=
  .send letterSetup.basePath letterSetup.source (FixedBytes.filled 16 2) (FixedBytes.filled 16 3) 0

def secondLetter : List Event :=
  listen 2 ++ [.side (.receiver (.answer true))] ++ listen 2 ++ talk 13 ++ listen 15 ++ talk 3 ++
    listen 1

/-- The second call sends its manifest before the receiver has read the end of the first. -/
def letterCalls : List Event :=
  talk 1 ++ scanLetter :: (firstLetter ++ sendAgain :: (talk 1 ++ scanLetter ::
    (talk 1 ++ listen 1 ++ .receive letterSetup.outputDir :: secondLetter)))

def isTurn : Event → Bool
  | .side (.sender .proceed) | .side (.receiver .proceed) | .side (.receiver (.answer _)) => true
  | _ => false

theorem along_turns {events : List Event} (hturns : events.all isTurn = true) (session : Session) :
    Along step (Calm good) session events := by
  refine along_of_forall (fun state event hevent => ?_) session
  have hturn := List.all_eq_true.mp hturns event hevent
  unfold isTurn at hturn
  split at hturn
  · exact ⟨trivial, trivial⟩
  · exact ⟨trivial, trivial⟩
  · exact ⟨trivial, trivial⟩
  · cases hturn

theorem calm_scanLetter {call : Call} {attempt : Nat} {status : FolderSender.PointStatus}
    (hsetup : session.setup = letterSetup)
    (hsender : session.world.sender = .sending call attempt status)
    (hframe : FitsFrame (scanned (senderSession letterSetup session.world.link call)
      ([103], [letter])) call.transferId) : Calm Separate session scanLetter := by
  change Smooth session.setup session.world (.sender (.answer (.file [103] 2 0))) ∧
    HonestEvent session.setup Separate (.sender (.answer (.file [103] 2 0)))
  rw [hsetup]
  refine ⟨⟨scans_letter, _, rfl, fun other again found hother => ?_⟩, scans_letter.1,
    fun found hfound => ?_⟩
  · cases hsender.symm.trans hother
    exact hframe
  · cases hfound
    exact separate_letter

/-- The file `in/g` goes over one connection twice. -/
theorem run_letterCalls :
    ∃ world final call attempt memory summary,
      Network.step letterSetup (initial letterSetup fun _ => none)
        (.start { ConfigMessage.default with compressionEnabled := false, chunkSize := 1 }
          (FixedBytes.filled 16 0) (FixedBytes.filled 16 1) 0) = some world ∧
      Along step (Calm Separate) ⟨letterSetup, 1, 1, world⟩ letterCalls ∧
      run ⟨letterSetup, 1, 1, world⟩ letterCalls = some final ∧
      final.setup = letterSetup ∧ final.sends = 2 ∧ final.receives = 2 ∧
      final.world.sender = .sending call attempt (.returned memory) ∧
      memory.files = [letter] ∧ final.world.receiver.status = .returned summary := by
  -- The states around the four events that a turn of either side does not cover.
  obtain ⟨world, asking, scanned₁, sent, calling, asking₂, scanned₂, received, final, call, attempt,
      status, memory₁, call₂, status₂, summary₁, memory, summary, hstart, hasking, hscanned, hsent,
      hcalling, hasking₂, hscanned₂, hreceived, hrun, hsetup, hsender, hframe, hserved, hsetup₂,
      hsender₂, hframe₂, hreturned, hfinal⟩ :
      ∃ world asking scanned₁ sent calling asking₂ scanned₂ received final call attempt status
        memory₁ call₂ status₂ summary₁ memory summary,
      Network.step letterSetup (initial letterSetup fun _ => none)
        (.start { ConfigMessage.default with compressionEnabled := false, chunkSize := 1 }
          (FixedBytes.filled 16 0) (FixedBytes.filled 16 1) 0) = some world ∧
      run ⟨letterSetup, 1, 1, world⟩ (talk 1) = some asking ∧
      step asking scanLetter = some scanned₁ ∧ run scanned₁ firstLetter = some sent ∧
      step sent sendAgain = some calling ∧ run calling (talk 1) = some asking₂ ∧
      step asking₂ scanLetter = some scanned₂ ∧
      run scanned₂ (talk 1 ++ listen 1) = some received ∧
      run ⟨letterSetup, 1, 1, world⟩ letterCalls = some final ∧
      asking.setup = letterSetup ∧ asking.world.sender = .sending call attempt status ∧
      FitsFrame (scanned (senderSession letterSetup asking.world.link call) ([103], [letter]))
        call.transferId ∧
      sent.world.sender = .sending call attempt (.returned memory₁) ∧
      asking₂.setup = letterSetup ∧ asking₂.world.sender = .sending call₂ attempt status₂ ∧
      FitsFrame (scanned (senderSession letterSetup asking₂.world.link call₂) ([103], [letter]))
        call₂.transferId ∧
      received.world.receiver.status = .returned summary₁ ∧
      final.setup = letterSetup ∧ final.sends = 2 ∧ final.receives = 2 ∧
      final.world.sender = .sending call₂ attempt (.returned memory) ∧
      memory.files = [letter] ∧ final.world.receiver.status = .returned summary :=
    ⟨_, _, _, _, _, _, _, _, _, _, _, _, _, _, _, _, _, _, rfl, rfl, rfl, rfl, rfl, rfl, rfl, rfl,
      rfl, rfl, rfl, rfl, rfl, rfl, rfl, rfl, rfl, rfl, rfl, rfl, rfl, rfl, rfl⟩
  refine ⟨world, final, call₂, attempt, memory, summary, hstart, ?_, hrun, hfinal⟩
  refine along_append (along_turns rfl _) fun middle hmiddle => ?_
  cases hmiddle.symm.trans hasking
  refine ⟨calm_scanLetter hsetup hsender hframe, fun next hnext => ?_⟩
  cases hnext.symm.trans hscanned
  refine along_append (along_turns rfl _) fun middle hmiddle => ?_
  cases hmiddle.symm.trans hsent
  refine ⟨⟨call, attempt, _, hserved, trivial⟩, fun next hnext => ?_⟩
  cases hnext.symm.trans hcalling
  refine along_append (along_turns rfl _) fun middle hmiddle => ?_
  cases hmiddle.symm.trans hasking₂
  refine ⟨calm_scanLetter hsetup₂ hsender₂ hframe₂, fun next hnext => ?_⟩
  cases hnext.symm.trans hscanned₂
  refine along_append (along_turns rfl _) fun middle hmiddle => ?_
  cases hmiddle.symm.trans hreceived
  exact ⟨⟨summary₁, hreturned⟩, fun next _ => along_turns rfl next⟩

theorem reused_connection_letter :
    ∃ world final,
      Network.step letterSetup (initial letterSetup fun _ => none)
        (.start { ConfigMessage.default with compressionEnabled := false, chunkSize := 1 }
          (FixedBytes.filled 16 0) (FixedBytes.filled 16 1) 0) = some world ∧
      run ⟨letterSetup, 1, 1, world⟩ letterCalls = some final ∧
      final.sends = 2 ∧ final.receives = 2 ∧ Resembles Separate final ∧
      final.world.link.toSender = [] ∧ final.world.link.toReceiver = [] ∧
      final.world.link.accepted = final.world.link.opened.length := by
  obtain ⟨world, final, call, attempt, memory, summary, hstart, hcalm, hrun, _, hsends, hreceives,
    hsender, _, hreceiver⟩ := run_letterCalls
  obtain ⟨hresembles, horderly⟩ :=
    reused_connection (fun data _ encoded hencode => by cases hencode; rfl) hstart hcalm hrun
  exact ⟨world, final, hstart, hrun, hsends, hreceives, hresembles,
    horderly.clean call attempt _ summary hsender trivial hreceiver (hsends.trans hreceives.symm)⟩

end P2PFileTransfer.Transfer.Reuse
