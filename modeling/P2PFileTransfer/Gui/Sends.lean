import P2PFileTransfer.Gui.App

/-!
# The sends of the window

The button that starts a send is off as long as the progress of one is shown.  So at most
one send is under way, and the history is the list of those that have ended, in order: the
files, the outcome and the times of each, whatever else the window was used for meanwhile.
-/

namespace P2PFileTransfer.Gui.Sends

open P2PFileTransfer.Core.Protocol (Error Uuid)
open P2PFileTransfer.Session.Records
open P2PFileTransfer.Gui.HandleMessage
open P2PFileTransfer.Gui.App

/-! ## What a run starts and ends -/

structure Started where
  transferId : Uuid
  time : Nat
  request : SendRequest

structure Ended where
  request : SendRequest
  result : Except Error Nat
  time : Nat

def Started.progress (started : Started) : TransferProgress :=
  ⟨displayName started.request.path, true⟩

def Started.record (started : Started) : TransferRecord :=
  .new started.transferId .send (.word "peer") started.time

/-- The record of a send that has ended. -/
def closed (started : Started) (ended : Ended) : TransferRecord :=
  match ended.result with
  | .ok bytes => started.record.complete [displayName started.request.path] bytes ended.time
  | .error error => started.record.fail error ended.time

/-- The send that an event starts, if its handler starts one. -/
def startedBy (setup : Setup) (world : World) : Event → List Started
  | .user .startSend given =>
      match handleMessage setup.build setup.toLowercase given world.app .startSend with
      | .ok (_, .send request) => [⟨given.transferId, given.now, request⟩]
      | _ => []
  | _ => []

/-- The send whose end an event reports to the window. -/
def endedBy (world : World) : Event → List Ended
  | .deliver index given =>
      match world.tasks[index]? with
      | some (.finished (.send request) (.sendComplete bytes)) => [⟨request, .ok bytes, given.now⟩]
      | some (.finished (.send request) (.sendFailed error)) => [⟨request, .error error, given.now⟩]
      | _ => []
  | _ => []

structure SendLog where
  started : List Started
  ended : List Ended

def note (setup : Setup) (program : Program) (event : Event) (log : SendLog) : SendLog :=
  match program with
  | .running world =>
      ⟨log.started ++ startedBy setup world event, log.ended ++ endedBy world event⟩
  | .panicked _ => log

/-- All sends of a run, in the order in which they start and in which their ends are reported. -/
def sendLog (setup : Setup) (program : Program) (events : List Event) : SendLog :=
  Foundation.Run.track (step setup) (note setup) ⟨[], []⟩ program events

def sendOf : Command → Option SendRequest
  | .send request => some request
  | _ => none

/-- The sends that go on, or whose end has not been reported yet. -/
def underWay (tasks : List Task) : List SendRequest :=
  tasks.filterMap fun task => sendOf task.command

/-- Each send that has ended is on record, and at most one is pending. -/
structure Booked (world : World) (log : SendLog) (past : List (Started × Ended))
    (pending : Option Started) : Prop where
  started : log.started = past.map Prod.fst ++ pending.toList
  ended : log.ended = past.map Prod.snd
  same : ∀ pair ∈ past, pair.2.request = pair.1.request
  history : world.app.history = past.map fun pair => closed pair.1 pair.2
  progress : world.app.transferProgress = pending.map Started.progress
  current : world.app.currentTransfer = pending.map Started.record
  tasks : underWay world.tasks = (pending.map Started.request).toList

variable {setup : Setup} {world : World} {event : Event} {next : Program} {log : SendLog}
  {past : List (Started × Ended)} {pending : Option Started}

/-! ## The work of a step -/

theorem underWay_append (first second : List Task) :
    underWay (first ++ second) = underWay first ++ underWay second := List.filterMap_append

theorem underWay_cons (task : Task) (rest : List Task) :
    underWay (task :: rest) = (sendOf task.command).toList ++ underWay rest := by
  unfold underWay
  cases hsend : sendOf task.command with
  | none => exact List.filterMap_cons_none hsend
  | some request => exact List.filterMap_cons_some hsend

theorem underWay_spawn (command : Command) :
    underWay (spawn command) = (sendOf command).toList := by
  cases command <;> rfl

/-! ## Messages that are about something else -/

def Message.sends : Message → Bool
  | .startSend | .sendComplete _ | .sendFailed _ => true
  | _ => false

/-- The history and the transfer under way are the same. -/
structure Quiet (state after : AppState) : Prop where
  history : after.history = state.history
  progress : after.transferProgress = state.transferProgress
  current : after.currentTransfer = state.currentTransfer

theorem quiet_of_handled {given : Surroundings} {message : Message} {state after : AppState}
    {command : Command} (hother : Message.sends message = false)
    (hhandled : handleMessage setup.build setup.toLowercase given state message =
      .ok (after, command)) : Quiet state after ∧ sendOf command = none := by
  cases responded_of_handleMessage hhandled with
  | edited _ hframe hpicks =>
      refine ⟨⟨hframe.history, hframe.transferProgress, hframe.currentTransfer⟩, ?_⟩
      cases command with
      | none | pickPath | pickOutputDir => rfl
      | listen _ | pair _ | connect _ | send _ => cases hpicks
  | connecting hstart =>
      cases connectionStarted_of_eq hstart <;> exact ⟨⟨rfl, rfl, rfl⟩, rfl⟩
  | stopped | established | session | failed => exact ⟨⟨rfl, rfl, rfl⟩, rfl⟩
  | sending _ | sent | sendFailed => cases hother

/-- The window offers a send only when none is shown. -/
theorem progress_of_view {state : AppState} {message : Message}
    (hoffered : view state message = true) (hsends : Message.sends message = true) :
    message = .startSend ∧ state.transferProgress = none := by
  have hnone {tab : Tab} (hview : viewTab state tab message = true) :
      message = .startSend ∧ state.transferProgress = none := by
    cases message with
    | startSend =>
        cases tab with
        | send => exact ⟨rfl, (of_decide_eq_true hview).1⟩
        | connection | receive | settings | history => cases hview
    | sendComplete _ | sendFailed _ => cases tab <;> cases hview
    | _ => cases hsends
  cases message with
  | startSend | sendComplete _ | sendFailed _ => exact hnone hoffered
  | _ => cases hsends

theorem Booked.quiet {after : World} (hbooked : Booked world log past pending)
    (hquiet : Quiet world.app after.app) (hsame : underWay after.tasks = underWay world.tasks) :
    Booked after log past pending where
  started := hbooked.started
  ended := hbooked.ended
  same := hbooked.same
  history := hquiet.history.trans hbooked.history
  progress := hquiet.progress.trans hbooked.progress
  current := hquiet.current.trans hbooked.current
  tasks := hsame.trans hbooked.tasks

/-! ## What a step notes -/

variable {given : Surroundings} {message : Message} {index : Nat} {app : AppState}
  {command : Command}

theorem note_of_nil (hstarted : startedBy setup world event = [])
    (hended : endedBy world event = []) :
    note setup (.running world) event log = log := by
  rw [note, hstarted, hended, List.append_nil, List.append_nil]

theorem startedBy_of_other (hother : Message.sends message = false) :
    startedBy setup world (.user message given) = [] := by
  cases message with
  | startSend => cases hother
  | _ => rfl

theorem startedBy_of_handled
    (hhandled : handleMessage setup.build setup.toLowercase given world.app .startSend =
      .ok (app, command)) :
    startedBy setup world (.user .startSend given) =
      (sendOf command).toList.map fun request => ⟨given.transferId, given.now, request⟩ := by
  unfold startedBy
  simp only [hhandled]
  cases command <;> rfl

theorem endedBy_of_other (hfound : world.tasks[index]? = some (.finished command message))
    (hother : Message.sends message = false) : endedBy world (.deliver index given) = [] := by
  unfold endedBy
  simp only [hfound]
  cases command with
  | send request =>
      cases message with
      | sendComplete _ | sendFailed _ => cases hother
      | _ => rfl
  | _ => rfl

theorem endedBy_of_sent {request : SendRequest} {result : Except Error Nat}
    (hfound : world.tasks[index]? = some (.finished (.send request) (sendMessage result))) :
    endedBy world (.deliver index given) = [⟨request, result, given.now⟩] := by
  unfold endedBy
  simp only [hfound]
  cases result <;> rfl

/-! ## One step -/

theorem Booked.user {after : World} (hbooked : Booked world log past pending)
    (hoffered : view world.app message = true)
    (hhandle : world.handle setup given message world.tasks = .running after) :
    ∃ pending,
      Booked after (note setup (.running world) (.user message given) log) past pending := by
  obtain ⟨app, command, hhandled, rfl⟩ := exists_of_handle hhandle
  have hspawned (hnone : sendOf command = none) :
      underWay (world.tasks ++ spawn command) = underWay world.tasks := by
    rw [underWay_append, underWay_spawn, hnone]
    exact List.append_nil _
  cases hsends : Message.sends message with
  | false =>
      obtain ⟨hquiet, hnone⟩ := quiet_of_handled hsends hhandled
      rw [note_of_nil (startedBy_of_other hsends) rfl]
      exact ⟨pending, hbooked.quiet hquiet (hspawned hnone)⟩
  | true =>
      obtain ⟨rfl, hidle⟩ := progress_of_view hoffered hsends
      have hstarted := startedBy_of_handled hhandled
      cases sendStarted_of_eq hhandled with
      | refused =>
          rw [note_of_nil hstarted rfl]
          exact ⟨pending, hbooked.quiet ⟨rfl, rfl, rfl⟩ (hspawned rfl)⟩
      | @started session path hsession hpath =>
          have hpending : pending = none :=
            Option.map_eq_none_iff.mp (hbooked.progress.symm.trans hidle)
          subst hpending
          refine ⟨some ⟨given.transferId, given.now, session, path, world.app.settings.maxRetries⟩,
            ?_, ?_, hbooked.same, hbooked.history, rfl, rfl, ?_⟩
          · rw [note, hstarted, hbooked.started]
            exact congrArg (· ++ _) (List.append_nil _)
          · exact (List.append_nil _).trans hbooked.ended
          · rw [underWay_append, hbooked.tasks]
            rfl

/-- The end of the send that is pending closes its record. -/
theorem Booked.sent {before after : List Task} {request : SendRequest} {result : Except Error Nat}
    (hbooked : Booked world log past pending)
    (htasks : world.tasks = before ++ .finished (.send request) (sendMessage result) :: after)
    (hfound : world.tasks[index]? = some (.finished (.send request) (sendMessage result)))
    (hhandled : handleMessage setup.build setup.toLowercase given world.app (sendMessage result) =
      .ok (app, command)) :
    ∃ past, Booked ⟨app, world.established, before ++ after ++ spawn command⟩
      (note setup (.running world) (.deliver index given) log) past none := by
  have hunder := hbooked.tasks
  rw [htasks, underWay_append, underWay_cons] at hunder
  cases pending with
  | none =>
      obtain ⟨_, hrest⟩ := List.append_eq_nil_iff.mp hunder
      cases hrest
  | some started =>
      -- the send that has ended is the one that is pending, and nothing else is under way
      obtain ⟨hbefore, hsame, hafter⟩ : underWay before = [] ∧ request = started.request ∧
          underWay after = [] := by
        cases hfirst : underWay before with
        | nil =>
            rw [hfirst] at hunder
            obtain ⟨hhead, hrest⟩ := List.cons.inj hunder
            exact ⟨rfl, hhead, hrest⟩
        | cons first rest =>
            rw [hfirst] at hunder
            obtain ⟨_, hrest⟩ := List.cons.inj hunder
            exact absurd (List.append_eq_nil_iff.mp hrest).2 (List.cons_ne_nil _ _)
      have hprogress := hbooked.progress
      have hcurrent := hbooked.current
      have hclosed : app = (world.app.closeTransfer fun _ =>
          closed started ⟨request, result, given.now⟩) ∧ command = .none := by
        cases result with
        | ok bytes =>
            cases hhandled
            refine ⟨?_, rfl⟩
            rw [handleSendComplete, hprogress]
            unfold AppState.closeTransfer
            rw [hcurrent]
            rfl
        | error error =>
            cases hhandled
            refine ⟨?_, rfl⟩
            rw [handleSendFailed]
            unfold AppState.closeTransfer
            rw [hcurrent]
            rfl
      obtain ⟨rfl, rfl⟩ := hclosed
      refine ⟨past ++ [(started, ⟨request, result, given.now⟩)], ?_, ?_, ?_, ?_, rfl, rfl, ?_⟩
      · change log.started ++ [] = _
        rw [List.append_nil, hbooked.started, List.map_append]
        exact (List.append_nil _).symm
      · rw [note, endedBy_of_sent hfound, hbooked.ended, List.map_append]
        rfl
      · intro pair hmem
        rcases List.mem_append.mp hmem with hpast | hlast
        · exact hbooked.same pair hpast
        · rw [List.mem_singleton.mp hlast]
          exact hsame
      · unfold AppState.closeTransfer
        rw [hcurrent, hbooked.history, List.map_append]
        rfl
      · rw [underWay_append, underWay_append, hbefore, hafter]
        rfl

theorem Booked.delivered {before after : List Task} {later : World}
    (hanswering : Answering world) (hbooked : Booked world log past pending)
    (hfound : world.tasks[index]? = some (.finished command message))
    (htasks : world.tasks = before ++ .finished command message :: after)
    (hhandle : world.handle setup given message (before ++ after) = .running later) :
    ∃ past pending,
      Booked later (note setup (.running world) (.deliver index given) log) past pending := by
  obtain ⟨app, next, hhandled, rfl⟩ := exists_of_handle hhandle
  have hanswers : Answers command message := hanswering (.finished command message)
    (htasks ▸ List.mem_append_right _ List.mem_cons_self)
  have hquiet (hother : Message.sends message = false) (hsend : sendOf command = none) :
      ∃ past pending, Booked ⟨app, world.established, before ++ after ++ spawn next⟩
        (note setup (.running world) (.deliver index given) log) past pending := by
    obtain ⟨hquiet, hnone⟩ := quiet_of_handled hother hhandled
    rw [note_of_nil rfl (endedBy_of_other hfound hother)]
    refine ⟨past, pending, hbooked.quiet hquiet ?_⟩
    rw [htasks, underWay_append, underWay_append, underWay_append, underWay_cons, underWay_spawn,
      hnone, Task.command, hsend, List.append_assoc]
    exact congrArg _ (List.append_nil _)
  have hconnects (hconnects : command.connects = true) : sendOf command = none := by
    cases command with
    | send _ => cases hconnects
    | _ => rfl
  cases hanswers with
  | path | outputDir | stopped => exact hquiet rfl rfl
  | failed hcommand => exact hquiet rfl (hconnects hcommand)
  | session hcommand => exact hquiet rfl (hconnects hcommand)
  | sent =>
      obtain ⟨past, hsent⟩ := hbooked.sent htasks hfound hhandled
      exact ⟨past, none, hsent⟩

theorem Booked.step {after : World} (hanswering : Answering world)
    (hbooked : Booked world log past pending)
    (hstep : step setup (.running world) event = some (.running after)) :
    ∃ past pending, Booked after (note setup (.running world) event log) past pending := by
  generalize hnext : Program.running after = next at hstep
  cases stepped_of_step hstep with
  | user hoffered =>
      obtain ⟨pending, hafter⟩ := hbooked.user hoffered hnext.symm
      exact ⟨past, pending, hafter⟩
  | delivered hfound htasks => exact hbooked.delivered hanswering hfound htasks hnext.symm
  | worked _ htasks hadvanced =>
      cases hnext
      rw [note_of_nil rfl rfl]
      refine ⟨past, pending, hbooked.quiet ⟨rfl, rfl, rfl⟩ ?_⟩
      rw [htasks, underWay_append, underWay_append, underWay_cons, underWay_cons,
        hadvanced.command_eq]

/-! ## Every run -/

/-- The program runs with its sends booked, or it has stopped with a panic. -/
def Kept (log : SendLog) : Program → Prop
  | .running world => Answering world ∧ ∃ past pending, Booked world log past pending
  | .panicked _ => True

theorem kept_step {program : Program} (hkept : Kept log program)
    (hstep : step setup program event = some next) : Kept (note setup program event log) next := by
  cases program with
  | panicked panic => cases hstep
  | running world =>
      cases next with
      | panicked panic => trivial
      | running after =>
          obtain ⟨hanswering, past, pending, hbooked⟩ := hkept
          exact ⟨hanswering.step hstep, hbooked.step hanswering hstep⟩

theorem booked_opened (deviceId : Uuid) : Booked (.opened deviceId) ⟨[], []⟩ [] none where
  started := rfl
  ended := rfl
  same := fun _ hmem => absurd hmem List.not_mem_nil
  history := rfl
  progress := rfl
  current := rfl
  tasks := rfl

/-- Whatever the user does and however the work goes on in between, the history holds one
record for each send that has ended, and at most one more send is under way. -/
theorem gui_sends_recorded {deviceId : Uuid} {events : List Event}
    (hrun : run setup (opened deviceId) events = some (.running world)) :
    ∃ past pending, Booked world (sendLog setup (opened deviceId) events) past pending := by
  have hall : ∀ event ∈ events, True := fun _ _ => trivial
  have hstart : Kept ⟨[], []⟩ (opened deviceId) :=
    ⟨fun _ hmem => absurd hmem List.not_mem_nil, [], none, booked_opened deviceId⟩
  have hkept : Kept (sendLog setup (opened deviceId) events) (.running world) := by
    refine Foundation.Run.invariant_track Kept ?_ hall hstart hrun
    exact fun log program event next hkept _ hstep => kept_step hkept hstep
  exact hkept.2

theorem gui_sends_recorded_dialled : ∃ world,
    run dialling (opened ownDevice) dialAndSend = some (.running world) ∧
      world.app.history.length = 1 ∧
      ∃ past pending, Booked world (sendLog dialling (opened ownDevice) dialAndSend) past pending :=
  ⟨_, rfl, rfl, @gui_sends_recorded dialling _ ownDevice dialAndSend rfl⟩

end P2PFileTransfer.Gui.Sends
