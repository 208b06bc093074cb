import P2PFileTransfer.Foundation.Liveness
import P2PFileTransfer.Gui.Peers

/-!
# The connections of the window

The one button that starts a connection turns into the one that stops it.  A stop does not
end the work it gives up, so that every stop makes room for one more connection, and no
other step does.  A listener that is given up notices it when its peer has left, or before
it has one.
-/

namespace P2PFileTransfer.Gui.Connections

open P2PFileTransfer.Foundation.FixedWidth
open P2PFileTransfer.Foundation.Liveness
open P2PFileTransfer.Core.Protocol (Uuid)
open P2PFileTransfer.Gui.HandleMessage
open P2PFileTransfer.Gui.App
open P2PFileTransfer.Gui.Peers

/-! ## One connection, and one more for each stop -/

def stops : Event → Bool
  | .user .stopConnection _ => true
  | _ => false

/-- Work that may still become a session. -/
def attempts : Task → Bool
  | .listening _ _ | .pairing _ | .connecting _ => true
  | .finished command message =>
      command.connects && (message == .connectionEstablished || message == .connectionFailed)
  | .pickingPath | .pickingOutputDir | .sending _ => false

def idle (app : AppState) : Nat := if app.connectionState.isActive then 0 else 1

/-- The room that is taken: by sessions, by attempts, and by the button while it can start
another one. -/
def taken (world : World) : Nat :=
  world.established.length + world.tasks.countP attempts + idle world.app

/-- The status line says that nothing goes on exactly when the button starts a connection. -/
def Coherent (app : AppState) : Prop :=
  app.connectionState.isActive = true ↔ app.connectionState.statusMessage ≠ .idle

variable {setup : Setup} {world later : World} {event : Event} {past : List Event}
  {given : Surroundings} {message : Message} {state after : AppState} {command : Command}

theorem coherent_idle (state : AppState) : Coherent (state.withConnection .idle false) := by
  constructor
  · intro hactive
    cases hactive
  · exact fun hne => absurd rfl hne

theorem coherent_active (state : AppState) {status : StatusMessage} (hne : status ≠ .idle) :
    Coherent (state.withConnection status true) := ⟨fun _ => hne, fun _ => rfl⟩

theorem coherent_of_responded (hresponded : Responded setup.build given state message after command)
    (hcoherent : Coherent state) : Coherent after := by
  cases hresponded with
  | edited _ hframe _ =>
      rw [Coherent, hframe.isActive, hframe.statusMessage]
      exact hcoherent
  | connecting hstart =>
      cases connectionStarted_of_eq hstart with
      | refused _ => exact coherent_idle state
      | listening _ _ _ | pairing _ _ _ | connecting _ _ _ =>
          exact coherent_active state (by rintro ⟨⟩)
  | stopped | failed => exact coherent_idle state
  | established | session => exact coherent_active state (by rintro ⟨⟩)
  | sending hstart => cases sendStarted_of_eq hstart <;> exact hcoherent
  | sent | sendFailed => exact hcoherent

/-- Only a stop and a failure make room. -/
def frees : Message → Nat
  | .stopConnection | .connectionFailed => 1
  | _ => 0

theorem idle_le (app : AppState) : idle app ≤ 1 := by
  unfold idle
  split
  · exact Nat.zero_le _
  · exact Nat.le_refl _

theorem idle_of_responded (hresponded : Responded setup.build given state message after command)
    (hinactive : message = .startConnection → state.connectionState.isActive = false) :
    (spawn command).countP attempts + idle after ≤ frees message + idle state := by
  cases hresponded with
  | edited _ hframe hpicks =>
      have hnone : (spawn command).countP attempts = 0 := by
        cases command with
        | none | pickPath | pickOutputDir => rfl
        | listen _ | pair _ | connect _ | send _ => cases hpicks
      rw [hnone, idle, hframe.isActive, Nat.zero_add]
      exact Nat.le_add_left _ _
  | connecting hstart =>
      have hidle : idle state = 1 := by
        rw [idle, hinactive rfl]
        rfl
      rw [hidle]
      cases connectionStarted_of_eq hstart <;> exact Nat.le_refl _
  | stopped | failed => exact Nat.le_add_right 1 _
  | established | session => exact Nat.zero_le _
  | sending hstart => cases sendStarted_of_eq hstart <;> exact Nat.le_refl _
  | sent | sendFailed => exact Nat.le_of_eq rfl

structure Counted (past : List Event) (world : World) : Prop where
  status : Coherent world.app
  room : taken world ≤ past.countP stops + 1

theorem Counted.handle {tasks : List Task} {freed : Nat} (hcounted : Counted past world)
    (hinactive : message = .startConnection → world.app.connectionState.isActive = false)
    (htasks : tasks.countP attempts + frees message ≤ world.tasks.countP attempts + freed)
    (hstops : past.countP stops + freed ≤ (past ++ [event]).countP stops)
    (hhandle : world.handle setup given message tasks = .running later) :
    Counted (past ++ [event]) later := by
  obtain ⟨app, command, hhandled, rfl⟩ := exists_of_handle hhandle
  have hresponded := responded_of_handleMessage hhandled
  refine ⟨coherent_of_responded hresponded hcounted.status, ?_⟩
  have hidle := idle_of_responded hresponded hinactive
  have hroom := hcounted.room
  unfold taken at hroom ⊢
  rw [List.countP_append]
  dsimp only
  omega

theorem inactive_of_view (hoffered : view state .startConnection = true) :
    state.connectionState.isActive = false := by
  have htab : viewTab state state.currentTab .startConnection = true := hoffered
  generalize state.currentTab = tab at htab
  cases tab with
  | connection => exact Bool.not_eq_true' _ ▸ htab
  | send | receive | settings | history => cases htab

/-- The message that the work of a connection ends in gives its room to the session, or
gives it back. -/
theorem frees_le_attempts {command : Command} {message : Message}
    (hanswers : Answers command message) :
    frees message ≤ [Task.finished command message].countP attempts := by
  cases hanswers with
  | path | outputDir | stopped | session _ => exact Nat.zero_le _
  | failed hconnects =>
      have hattempt : attempts (.finished command .connectionFailed) = true := by
        rw [attempts, hconnects]
        rfl
      rw [List.countP_singleton, if_pos hattempt]
      exact Nat.le_refl _
  | @sent _ result => cases result <;> exact Nat.zero_le _

variable {cancelled : Bool} {established kept : List Established} {task next : Task} {move : Move}

/-- A turn of the work keeps its room, or turns it into a session. -/
theorem attempts_of_advanced
    (hadvanced : Advanced setup cancelled established task move kept next) :
    kept.length + [next].countP attempts ≤ established.length + [task].countP attempts := by
  cases hadvanced with
  | picked | pickedOutputDir | unpaired _ | unconnected _ => exact Nat.le_refl _
  | listened hturn => cases hturn <;> exact Nat.le_refl _
  | paired _ | dialled _ _ =>
      rw [List.length_append]
      exact Nat.le_refl _
  | reconnected _ _ =>
      rw [List.length_set]
  | @sent _ result => cases result <;> exact Nat.le_refl _

theorem Counted.step (hanswering : Answering world) (hcounted : Counted past world)
    (hstep : App.step setup (.running world) event = some (.running later)) :
    Counted (past ++ [event]) later := by
  generalize hnext : Program.running later = program at hstep
  cases stepped_of_step hstep with
  | @user message given hoffered =>
      refine @Counted.handle _ _ _ _ _ _ _ _ (frees message) hcounted ?_ (Nat.le_refl _) ?_
        hnext.symm
      · rintro rfl
        exact inactive_of_view hoffered
      · rw [List.countP_append]
        have hreports := reports_of_view hoffered
        cases message with
        | stopConnection => exact Nat.le_refl _
        | connectionFailed => cases hreports
        | _ => exact Nat.le_add_right _ _
  | @delivered index given command message before after hfound htasks =>
      have hmem : .finished command message ∈ world.tasks :=
        htasks ▸ List.mem_append_right _ List.mem_cons_self
      have hanswers : Answers command message := hanswering _ hmem
      refine @Counted.handle _ _ _ _ _ _ _ _ 0 hcounted ?_ ?_ ?_ hnext.symm
      · rintro rfl
        cases reports_of_answers hanswers
      · have hfrees := frees_le_attempts hanswers
        rw [htasks, List.countP_append, List.countP_append, List.countP_cons]
        rw [List.countP_singleton] at hfrees
        omega
      · rw [List.countP_append]
        exact Nat.le_add_right _ _
  | worked _ htasks hadvanced =>
      cases hnext
      have hattempts := attempts_of_advanced hadvanced
      refine ⟨hcounted.status, ?_⟩
      have hroom := hcounted.room
      unfold taken at hroom ⊢
      rw [htasks, List.countP_append, List.countP_cons] at hroom
      rw [List.countP_singleton, List.countP_singleton] at hattempts
      rw [List.countP_append, List.countP_append, List.countP_cons]
      dsimp only
      omega

def CountedProgram (past : List Event) : Program → Prop
  | .running world => Answering world ∧ Counted past world
  | .panicked _ => True

theorem counted_of_run {deviceId : Uuid} {events : List Event}
    (hrun : run setup (opened deviceId) events = some (.running world)) : Counted events world := by
  have hstart : CountedProgram [] (opened deviceId) := by
    refine ⟨fun _ hmem => absurd hmem List.not_mem_nil, ⟨?_, Nat.le_refl _⟩⟩
    exact coherent_idle (.new deviceId)
  have halong : Foundation.Run.Along (step setup) (fun _ _ => True) (opened deviceId) events :=
    Foundation.Run.along_of_forall (fun _ _ _ => trivial) _
  have hcounted : CountedProgram ([] ++ events) (.running world) := by
    refine Foundation.Run.invariant_history CountedProgram ?_ halong hstart hrun
    intro past program event next hcounted _ hstep
    cases program with
    | panicked panic => cases hstep
    | running world =>
        cases next with
        | panicked panic => trivial
        | running after => exact ⟨hcounted.1.step hstep, hcounted.2.step hcounted.1 hstep⟩
  exact hcounted.2

/-- In every run the status line is the idle one exactly when the button starts a
connection, and sessions, attempts and that button together never outnumber the stops by
more than one; without a stop a session is the only one, and nothing else is attempted. -/
theorem gui_one_connection_per_stop {deviceId : Uuid} {events : List Event}
    (hrun : run setup (opened deviceId) events = some (.running world)) :
    Coherent world.app ∧
      world.established.length + world.tasks.countP attempts + idle world.app ≤
        events.countP stops + 1 ∧
      (events.countP stops = 0 → world.app.session.isSome →
        world.established.length = 1 ∧ world.tasks.countP attempts = 0 ∧
          world.app.connectionState.isActive = true) := by
  have hcounted := counted_of_run hrun
  have hknown := known_of_run hrun
  refine ⟨hcounted.status, hcounted.room, fun hnone hsome => ?_⟩
  obtain ⟨session, hsession⟩ := Option.isSome_iff_exists.mp hsome
  have hlt := hknown.session session hsession
  have hroom := hcounted.room
  unfold taken at hroom
  refine ⟨by omega, by omega, ?_⟩
  have hidle : idle world.app = 0 := by omega
  unfold idle at hidle
  split at hidle
  · assumption
  · cases hidle

theorem gui_one_connection_per_stop_dialled : ∃ world,
    run dialling (opened ownDevice) dialAndSend = some (.running world) ∧
      Coherent world.app ∧
      world.established.length + world.tasks.countP attempts + idle world.app ≤
        dialAndSend.countP stops + 1 ∧
      (dialAndSend.countP stops = 0 → world.app.session.isSome →
        world.established.length = 1 ∧ world.tasks.countP attempts = 0 ∧
          world.app.connectionState.isActive = true) :=
  ⟨_, rfl, @gui_one_connection_per_stop dialling _ ownDevice dialAndSend rfl⟩

/-! ## Panics -/

/-- The chunk size is the default one, or one that was typed. -/
def Typed (past : List Event) (app : AppState) : Prop :=
  app.settings.chunkSizeKb = AppSettings.default.chunkSizeKb ∨
    ∃ given, .user (.chunkSizeChanged app.settings.chunkSizeKb) given ∈ past

theorem typed_of_step (hanswering : Answering world) (htyped : Typed past world.app)
    (hstep : step setup (.running world) event = some (.running later)) :
    Typed (past ++ [event]) later.app := by
  have hkept {app : AppState} (hsame : app.settings.chunkSizeKb = world.app.settings.chunkSizeKb) :
      Typed (past ++ [event]) app := by
    rw [Typed, hsame]
    exact htyped.imp_right fun ⟨given, hmem⟩ => ⟨given, List.mem_append_left _ hmem⟩
  generalize hnext : Program.running later = program at hstep
  cases stepped_of_step hstep with
  | user hoffered =>
      obtain ⟨app, command, hhandled, rfl⟩ := exists_of_handle hnext.symm
      rcases chunkSize_of_handleMessage hhandled with hsame | rfl
      · exact hkept hsame
      · exact .inr ⟨_, List.mem_append_right _ List.mem_cons_self⟩
  | @delivered index given command message before after hfound htasks =>
      obtain ⟨app, command, hhandled, rfl⟩ := exists_of_handle hnext.symm
      have hmem : .finished _ message ∈ world.tasks :=
        htasks ▸ List.mem_append_right _ List.mem_cons_self
      rcases chunkSize_of_handleMessage hhandled with hsame | rfl
      · exact hkept hsame
      · cases reports_of_answers (hanswering _ hmem)
  | worked _ htasks hadvanced =>
      cases hnext
      exact hkept rfl

/-- What led to a panic. -/
def Overflowed (setup : Setup) (past : List Event) (panic : Panic) : Prop :=
  setup.build = .checked ∧ panic = .arithmetic .overflow ∧
    ∃ size given, .user (.chunkSizeChanged size) given ∈ past ∧ 2 ^ 22 ≤ size.toNat

theorem overflowed_of_step {deviceId : Uuid} {log : List AppState} {panic : Panic}
    (hknown : Known setup deviceId log world) (htyped : Typed past world.app)
    (hstep : step setup (.running world) event = some (.panicked panic)) :
    Overflowed setup past panic := by
  have hdevice : world.app.connectionState.deviceId ≠ none := by
    rw [hknown.device]
    exact Option.some_ne_none deviceId
  have hhandle {given : Surroundings} {message : Message} {tasks : List Task}
      (hpanic : world.handle setup given message tasks = .panicked panic) :
      Overflowed setup past panic := by
    unfold World.handle at hpanic
    split at hpanic
    · cases hpanic
    · rename_i other hhandled
      cases hpanic
      have hoverflows := overflows_of_handleMessage hdevice hhandled
      refine ⟨hoverflows.build, hoverflows.panic, ?_⟩
      rcases htyped with hdefault | ⟨given, hmem⟩
      · have hlarge := hoverflows.large
        rw [hdefault] at hlarge
        exact absurd hlarge (by decide)
      · exact ⟨_, given, hmem, hoverflows.large⟩
  generalize hnext : Program.panicked panic = program at hstep
  cases stepped_of_step hstep with
  | user _ => exact hhandle hnext.symm
  | delivered _ _ => exact hhandle hnext.symm
  | worked _ _ _ => cases hnext

def Explained (setup : Setup) (deviceId : Uuid) (past : List Event) : Program → Prop
  | .running world =>
      Answering world ∧ Typed past world.app ∧ ∃ log, Known setup deviceId log world
  | .panicked panic => Overflowed setup past panic

/-- The program panics only in a build that checks its arithmetic, and only after a chunk
size of 4 GiB or more was typed. -/
theorem gui_panics_on_overflow {deviceId : Uuid} {events : List Event} {panic : Panic}
    (hrun : run setup (opened deviceId) events = some (.panicked panic)) :
    setup.build = .checked ∧ panic = .arithmetic .overflow ∧
      ∃ size given, .user (.chunkSizeChanged size) given ∈ events ∧ 2 ^ 22 ≤ size.toNat := by
  have hstart : Explained setup deviceId [] (opened deviceId) :=
    ⟨fun _ hmem => absurd hmem List.not_mem_nil, .inl rfl, [], known_opened setup deviceId⟩
  have halong : Foundation.Run.Along (step setup) (fun _ _ => True) (opened deviceId) events :=
    Foundation.Run.along_of_forall (fun _ _ _ => trivial) _
  have hexplained : Explained setup deviceId ([] ++ events) (.panicked panic) := by
    refine Foundation.Run.invariant_history (Explained setup deviceId) ?_ halong hstart hrun
    intro past program event next hexplained _ hstep
    cases program with
    | panicked panic => cases hstep
    | running world =>
        obtain ⟨hanswering, htyped, log, hknown⟩ := hexplained
        cases next with
        | running after =>
            exact ⟨hanswering.step hstep, typed_of_step hanswering htyped hstep, _,
              hknown.step hanswering hstep⟩
        | panicked panic =>
            obtain ⟨hbuild, hpanic, size, given, hmem, hlarge⟩ :=
              overflowed_of_step hknown htyped hstep
            exact ⟨hbuild, hpanic, size, given, List.mem_append_left _ hmem, hlarge⟩
  exact hexplained

theorem gui_panics_on_overflow_listening :
    dialling.build = .checked ∧ Panic.arithmetic .overflow = .arithmetic .overflow ∧
      ∃ size given, .user (.chunkSizeChanged size) given ∈
          [Event.user (.tabSelected .settings) onDisk, .user (.chunkSizeChanged 4194304) onDisk,
            .user (.tabSelected .connection) onDisk, .user .startConnection onDisk] ∧
        2 ^ 22 ≤ size.toNat :=
  @gui_panics_on_overflow dialling ownDevice _ _ rfl

/-! ## Listeners that are given up -/

/-- How many turns a listener that is given up has at most, its transfers aside. -/
def turnsLeft : Task → Nat
  | .listening _ .checking => 1
  | .listening _ (.receiving _) => 2
  | .listening _ .accepting => 3
  | _ => 0

def awaits : Task → Bool
  | .listening _ .accepting => true
  | _ => false

def takes : Event → Bool
  | .work _ move => move.takes
  | _ => false

/-- The button is not used to listen again. -/
def Rests : Program → Event → Prop
  | .running world, .user .startConnection _ => world.app.connectionState.mode ≠ .listen
  | _, _ => True

/-- A turn of a listener whose peer sends nothing more. -/
def Winds : Program → Event → Prop
  | .running world, .work index move =>
      (∃ request stage, world.tasks[index]? = some (.listening request stage)) ∧
        ∀ summary, move ≠ .received (.ok summary)
  | _, _ => False

theorem cancelled_of_responded
    (hresponded : Responded setup.build given state message after command)
    (hrests : message = .startConnection → state.connectionState.mode ≠ .listen)
    (hcancelled : state.cancelListener = true) : after.cancelListener = true := by
  cases hresponded with
  | edited _ hframe _ => exact hframe.cancelListener.trans hcancelled
  | connecting hstart =>
      cases connectionStarted_of_eq hstart with
      | listening hmode _ _ => exact absurd hmode (hrests rfl)
      | refused _ | pairing _ _ _ | connecting _ _ _ => exact hcancelled
  | stopped => rfl
  | established | session | failed | sent | sendFailed => exact hcancelled
  | sending hstart => cases sendStarted_of_eq hstart <;> exact hcancelled

theorem awaits_of_advanced (hadvanced : Advanced setup true established task move kept next) :
    (if move.takes then 1 else 0) + [next].countP awaits ≤ [task].countP awaits := by
  cases hadvanced with
  | picked | pickedOutputDir | paired _ | dialled _ _ | reconnected _ _ => exact Nat.le_refl _
  | unpaired htakes | unconnected htakes =>
      rw [htakes]
      exact Nat.le_refl _
  | @sent _ result => exact Nat.le_refl _
  | listened hturn =>
      cases hturn with
      | noticed _ | received | left => exact Nat.le_refl _
      | waits hcancelled => cases hcancelled
      | accepted _ => exact Nat.le_refl _
      | ended hstage =>
          cases htakes : move.takes with
          | false => exact Nat.zero_le _
          | true =>
              rw [hstage htakes]
              exact Nat.le_refl _

/-- A turn of a listener that is given up is one of its last. -/
theorem turnsLeft_of_advanced {request : ListenRequest} {stage : ListenerStage}
    (hadvanced : Advanced setup true established (.listening request stage) move kept next)
    (hmove : ∀ summary, move ≠ .received (.ok summary)) :
    turnsLeft next < turnsLeft (.listening request stage) := by
  cases hadvanced with
  | listened hturn =>
      cases hturn with
      | noticed _ => exact Nat.zero_lt_one
      | waits hcancelled => cases hcancelled
      | ended _ => cases stage <;> exact Nat.succ_pos _
      | accepted _ => exact Nat.lt_succ_self 2
      | received => exact absurd rfl (hmove _)
      | left => exact Nat.lt_succ_self 1

/-- A listener that was given up, in a window that has not been told to listen again. -/
structure GivenUp (world : World) : Prop where
  answering : Answering world
  cancelled : world.app.cancelListener = true

theorem awaits_spawn (command : Command) : (spawn command).countP awaits = 0 := by
  cases command <;> rfl

/-- A step takes at most one caller, and uses up a listener that waits for one. -/
theorem GivenUp.step (hgiven : GivenUp world) (hrests : Rests (.running world) event)
    (hstep : App.step setup (.running world) event = some (.running later)) :
    GivenUp later ∧
      (if takes event then 1 else 0) + later.tasks.countP awaits ≤ world.tasks.countP awaits := by
  have hanswering := hgiven.answering.step hstep
  generalize hnext : Program.running later = program at hstep
  cases stepped_of_step hstep with
  | @user message given hoffered =>
      obtain ⟨app, command, hhandled, rfl⟩ := exists_of_handle hnext.symm
      refine ⟨⟨hanswering, ?_⟩, ?_⟩
      · refine cancelled_of_responded (responded_of_handleMessage hhandled) ?_ hgiven.cancelled
        rintro rfl
        exact hrests
      · rw [List.countP_append, awaits_spawn]
        exact Nat.le_of_eq (Nat.zero_add _)
  | @delivered index given command message before after hfound htasks =>
      obtain ⟨app, started, hhandled, rfl⟩ := exists_of_handle hnext.symm
      have hmem : .finished command message ∈ world.tasks :=
        htasks ▸ List.mem_append_right _ List.mem_cons_self
      refine ⟨⟨hanswering, ?_⟩, ?_⟩
      · refine cancelled_of_responded (responded_of_handleMessage hhandled) ?_ hgiven.cancelled
        rintro rfl
        cases reports_of_answers (hgiven.answering _ hmem)
      · rw [htasks, List.countP_append, List.countP_append, List.countP_append, List.countP_cons,
          awaits_spawn]
        exact Nat.le_of_eq (Nat.zero_add _)
  | @worked index move task next kept before after hfound htasks hadvanced =>
      cases hnext
      rw [hgiven.cancelled] at hadvanced
      have hawaits := awaits_of_advanced hadvanced
      refine ⟨⟨hanswering, hgiven.cancelled⟩, ?_⟩
      rw [htasks, List.countP_append, List.countP_append, List.countP_cons, List.countP_cons, takes]
      rw [List.countP_singleton, List.countP_singleton] at hawaits
      omega

theorem takes_le_awaits {events : List Event} {final : Program} (hgiven : GivenUp world)
    (hrests : Foundation.Run.Along (step setup) Rests (.running world) events)
    (hrun : run setup (.running world) events = some final) :
    events.countP takes ≤ world.tasks.countP awaits := by
  induction events generalizing world with
  | nil => exact Nat.zero_le _
  | cons event rest ih =>
      obtain ⟨next, hstep, hrest⟩ := Option.bind_eq_some_iff.mp hrun
      rw [List.countP_cons]
      cases next with
      | running later =>
          obtain ⟨hlater, hstepped⟩ := hgiven.step hrests.1 hstep
          have htaken := ih hlater (hrests.2 _ hstep) hrest
          omega
      | panicked panic =>
          cases rest with
          | cons other rest => cases hrest
          | nil =>
              -- only a message panics
              have hnone : takes event = false := by
                cases event with
                | user _ _ | deliver _ _ => rfl
                | work index move =>
                    obtain ⟨task, _, hmoved⟩ := Option.bind_eq_some_iff.mp hstep
                    obtain ⟨_, _, hpanicked⟩ := Option.map_eq_some_iff.mp hmoved
                    cases hpanicked
              rw [hnone]
              exact Nat.zero_le _

/-- A listener that is given up always has a turn, its peer may leave at any time. -/
theorem exists_turn (established : List Established) (request : ListenRequest)
    (stage : ListenerStage) : ∃ move kept later,
    (∀ summary, move ≠ .received (.ok summary)) ∧
      advance setup true established (.listening request stage) move = some (kept, later) := by
  cases stage with
  | checking => exact ⟨.look, _, _, by rintro _ ⟨⟩, rfl⟩
  | accepting => exact ⟨.look, _, _, by rintro _ ⟨⟩, rfl⟩
  | receiving session => exact ⟨.received (.error .disconnected), _, _, by rintro _ ⟨⟩, rfl⟩

def Silent (program : Program) : Prop :=
  ∃ world, program = .running world ∧ ∀ request stage, .listening request stage ∉ world.tasks

def rank : Program → Nat
  | .running world => (world.tasks.map turnsLeft).sum
  | .panicked _ => 0

theorem rank_of_winds {program : Program} (hcancelled : world.app.cancelListener = true)
    (hwinds : Winds (.running world) event)
    (hstep : App.step setup (.running world) event = some program) :
    ∃ later, program = .running later ∧ later.app.cancelListener = true ∧
      rank program < rank (.running world) := by
  cases stepped_of_step hstep with
  | user _ | delivered _ _ => exact hwinds.elim
  | @worked index move task next kept before after hfound htasks hadvanced =>
      obtain ⟨⟨request, stage, hlistening⟩, hmove⟩ := hwinds
      cases hfound.symm.trans hlistening
      rw [hcancelled] at hadvanced
      have hless := turnsLeft_of_advanced hadvanced hmove
      refine ⟨_, rfl, hcancelled, ?_⟩
      simp only [rank, htasks, List.map_append, List.map_cons, List.sum_append, List.sum_cons]
      omega

/-- After a stop, as long as the user does not listen again: no more callers are taken than
listeners wait for one at the moment, and once the peers send nothing more, every order of
the turns that are left ends all of them. -/
theorem gui_stopped_listeners_end {deviceId : Uuid} {past : List Event}
    (hrun : run setup (opened deviceId) past = some (.running world))
    (hcancelled : world.app.cancelListener = true) :
    (∀ events final, run setup (.running world) events = some final →
      Foundation.Run.Along (step setup) Rests (.running world) events →
      events.countP takes ≤ world.tasks.countP awaits) ∧
    Inevitable (step setup) Winds Silent (.running world) := by
  have hgiven : GivenUp world := ⟨answering_of_run hrun, hcancelled⟩
  refine ⟨fun events final hrest hrests => takes_le_awaits hgiven hrests hrest, ?_⟩
  refine inevitable_of_rank
    (fun program => ∃ world, program = .running world ∧ world.app.cancelListener = true) rank ?_ ?_
    ⟨world, rfl, hcancelled⟩
  · rintro _ ⟨world, rfl, hcancelled⟩
    by_cases hlistening : ∃ request stage, .listening request stage ∈ world.tasks
    · obtain ⟨request, stage, hmem⟩ := hlistening
      obtain ⟨index, hfound⟩ := List.mem_iff_getElem?.mp hmem
      obtain ⟨move, kept, later, hmove, hadvance⟩ :=
        @exists_turn setup world.established request stage
      refine .inr ⟨.work index move, .running ⟨world.app, kept, world.tasks.set index later⟩,
        ⟨⟨request, stage, hfound⟩, hmove⟩, ?_⟩
      change (world.tasks[index]?.bind _) = _
      rw [hfound, Option.bind_some, hcancelled, hadvance]
      rfl
    · exact .inl ⟨world, rfl, fun request stage hmem => hlistening ⟨request, stage, hmem⟩⟩
  · rintro _ event next ⟨world, rfl, hcancelled⟩ hwinds hstep
    obtain ⟨later, rfl, hlater, hless⟩ := rank_of_winds hcancelled hwinds hstep
    exact ⟨⟨later, rfl, hlater⟩, hless⟩

/-- A listener takes a caller and is stopped. -/
def listenAndStop : List Event :=
  [.user .startConnection onDisk, .work 0 .look, .user .stopConnection onDisk]

theorem gui_stopped_listeners_end_waiting : ∃ world,
    run dialling (opened ownDevice) listenAndStop = some (.running world) ∧
      (∀ events final, run dialling (.running world) events = some final →
        Foundation.Run.Along (step dialling) Rests (.running world) events →
        events.countP takes ≤ world.tasks.countP awaits) ∧
      Inevitable (step dialling) Winds Silent (.running world) :=
  ⟨_, rfl, @gui_stopped_listeners_end dialling _ ownDevice listenAndStop rfl rfl⟩

end P2PFileTransfer.Gui.Connections
