import P2PFileTransfer.Foundation.FileSystem
import P2PFileTransfer.Foundation.FixedWidth
import P2PFileTransfer.Foundation.Run

/-!
# Sequential processes over a file store and a connection

A process waits at a point, asks its environment for one action there, and goes
on from the reply.  The environment performs file operations on the store of the
process, and supplies the messages and the streams a peer sends.  Every action
but a plain computation may fail instead, with any error, and a failing write may
have stored some of its bytes.
-/

namespace P2PFileTransfer.Foundation.Process

open P2PFileTransfer.Foundation.ByteFile
open P2PFileTransfer.Foundation.FileSystem
open P2PFileTransfer.Foundation.FixedWidth
open P2PFileTransfer.Foundation.UnixPath

variable {Point Result Message Answer Error : Type}

/-- What a process waits for. -/
inductive Action (Message : Type) where
  | compute
  | ask
  | perform (operation : Operation)
  | send (message : Message)
  | receive
  | openStream (raw : Bytes)
  | awaitStopped
  | acceptStream
  deriving DecidableEq, Repr

/-- What it is handed when the wait is over. -/
inductive Reply (Message Answer : Type) where
  | done
  | answer (answer : Answer)
  | value (value : Value)
  | message (message : Message)
  | stream (raw : Bytes)
  deriving DecidableEq, Repr

/-- A process that ended keeps the point where it did. -/
inductive Status (Point Result Error : Type) where
  | running (point : Point)
  | returned (result : Result)
  | failed (point : Point) (error : Error)
  | panicked (point : Point) (fault : Fault)
  deriving DecidableEq, Repr

/-- What the environment does next. -/
inductive Input (Message Answer Error : Type) where
  | proceed
  | answer (answer : Answer)
  | message (message : Message)
  | stream (raw : Bytes)
  | fail (error : Error) (written : Nat)
  deriving DecidableEq, Repr

structure Machine (Point Result Message Answer Error : Type) where
  action : Point → Action Message
  resume : Point → Reply Message Answer → Status Point Result Error

structure State (Point Result Error : Type) where
  status : Status Point Result Error
  store : Store

/-- Continue with an exact value, or stop at `point` with its fault. -/
def Status.ofChecked {Value : Type} (point : Point) (value : Checked Value)
    (next : Value → Status Point Result Error) : Status Point Result Error :=
  match value with
  | .ok value => next value
  | .error fault => .panicked point fault

/-- Continue with a value, or stop at `point` with its error. -/
def Status.ofExcept {Value : Type} (point : Point) (value : Except Error Value)
    (next : Value → Status Point Result Error) : Status Point Result Error :=
  match value with
  | .ok value => next value
  | .error error => .failed point error

/-- The status of a caller whose callee has the given status. -/
def Status.embed {Outer Final : Type} (point : Point → Outer)
    (next : Result → Status Outer Final Error) : Status Point Result Error →
    Status Outer Final Error
  | .running inner => .running (point inner)
  | .returned result => next result
  | .failed inner error => .failed (point inner) error
  | .panicked inner fault => .panicked (point inner) fault

/-- The point a process waits at or ended at; a normal return has none. -/
def Status.point? : Status Point Result Error → Option Point
  | .running point | .failed point _ | .panicked point _ => some point
  | .returned _ => none

def Status.Halted : Status Point Result Error → Prop
  | .running _ => False
  | _ => True

instance (status : Status Point Result Error) : Decidable status.Halted :=
  match status with
  | .running _ => isFalse id
  | .returned _ | .failed _ _ | .panicked _ _ => isTrue trivial

/-- The reply has the kind the action asks for. -/
def Action.Fits : Action Message → Reply Message Answer → Prop
  | .compute, .done | .send _, .done | .openStream _, .done | .awaitStopped, .done => True
  | .ask, .answer _ | .perform _, .value _ | .receive, .message _ | .acceptStream, .stream _ => True
  | _, _ => False

/-- The locations whose contents an action may change. -/
def Action.written : Action Message → List Location
  | .perform operation => operation.written
  | _ => []

/-- The reply an input gives to an action, and the store after it. -/
def Action.reply : Action Message → Input Message Answer Error → Store →
    Option (Reply Message Answer × Store)
  | .compute, .proceed, store | .send _, .proceed, store | .openStream _, .proceed, store
  | .awaitStopped, .proceed, store => some (.done, store)
  | .ask, .answer answer, store => some (.answer answer, store)
  | .perform operation, .proceed, store =>
      (operation.run store).map fun result => (.value result.2, result.1)
  | .receive, .message message, store => some (.message message, store)
  | .acceptStream, .stream raw, store => some (.stream raw, store)
  | _, _, _ => none

/-- The store a failing action leaves; a computation does not fail. -/
def Action.interrupted : Action Message → Nat → Store → Option Store
  | .compute, _, _ => none
  | .perform operation, written, store => some (operation.interrupted written store)
  | _, _, store => some store

def Machine.step (machine : Machine Point Result Message Answer Error)
    (state : State Point Result Error) (input : Input Message Answer Error) :
    Option (State Point Result Error) :=
  match state.status with
  | .running point =>
      match input with
      | .fail error written =>
          ((machine.action point).interrupted written state.store).map fun store =>
            ⟨.failed point error, store⟩
      | input =>
          ((machine.action point).reply input state.store).map fun result =>
            ⟨machine.resume point result.1, result.2⟩
  | _ => none

/-- A file operation is performed when the environment goes on. -/
theorem Action.performed {operation : Operation} {input : Input Message Answer Error}
    {store after : Store} {reply : Reply Message Answer}
    (hreply : (Action.perform operation).reply input store = some (reply, after)) :
    input = .proceed ∧ ∃ value, reply = .value value ∧ operation.run store = some (after, value) := by
  cases input with
  | proceed =>
      obtain ⟨⟨found, value⟩, hrun, hresult⟩ := Option.map_eq_some_iff.mp hreply
      cases hresult
      exact ⟨rfl, value, rfl, hrun⟩
  | answer _ | message _ | stream _ | fail _ _ => cases hreply

theorem Action.fits_of_reply {action : Action Message} {input : Input Message Answer Error}
    {store after : Store} {reply : Reply Message Answer}
    (hreply : action.reply input store = some (reply, after)) : action.Fits reply := by
  cases action with
  | perform operation =>
      obtain ⟨_, value, rfl, _⟩ := Action.performed hreply
      trivial
  | compute | ask | send _ | receive | openStream _ | awaitStopped | acceptStream =>
      cases input <;> first | cases hreply; trivial | cases hreply

/-- A message is handed over as it arrived. -/
theorem Action.input_of_reply_message {action : Action Message}
    {input : Input Message Answer Error} {store after : Store} {message : Message}
    (hreply : action.reply input store = some (.message message, after)) :
    input = .message message := by
  cases action with
  | perform operation =>
      obtain ⟨_, value, hvalue, _⟩ := Action.performed hreply
      cases hvalue
  | compute | ask | send _ | receive | openStream _ | awaitStopped | acceptStream =>
      cases input <;> first | cases hreply; rfl | cases hreply

theorem Action.eq_of_reply_stream {action : Action Message} {raw : Bytes} {store after : Store}
    {reply : Reply Message Answer}
    (hreply : action.reply (.stream raw : Input Message Answer Error) store = some (reply, after)) :
    action = .acceptStream := by
  cases action with
  | acceptStream => rfl
  | compute | ask | perform _ | send _ | receive | openStream _ | awaitStopped => cases hreply

theorem Action.reply_frame {action : Action Message} {input : Input Message Answer Error}
    {store after : Store} {reply : Reply Message Answer}
    (hreply : action.reply input store = some (reply, after)) {location : Location}
    (hlocation : location ∉ action.written) : after location = store location := by
  cases action with
  | perform operation =>
      obtain ⟨_, value, _, hrun⟩ := Action.performed hreply
      exact Operation.run_frame hrun hlocation
  | compute | ask | send _ | receive | openStream _ | awaitStopped | acceptStream =>
      cases input <;> first | cases hreply; rfl | cases hreply

theorem Action.interrupted_frame {action : Action Message} {written : Nat} {store after : Store}
    (hfail : action.interrupted written store = some after) {location : Location}
    (hlocation : location ∉ action.written) : after location = store location := by
  cases action with
  | compute => cases hfail
  | perform operation =>
      cases hfail
      exact operation.interrupted_frame written store hlocation
  | ask | send _ | receive | openStream _ | awaitStopped | acceptStream =>
      cases hfail
      rfl

variable {machine : Machine Point Result Message Answer Error}

/-- A step either fails at the point it started from or resumes from a reply. -/
inductive Stepped (machine : Machine Point Result Message Answer Error)
    (state next : State Point Result Error) : Input Message Answer Error → Prop where
  | fail {point : Point} {error : Error} {written : Nat} {store : Store}
      (hstatus : state.status = .running point)
      (hstore : (machine.action point).interrupted written state.store = some store)
      (hnext : next = ⟨.failed point error, store⟩) : Stepped machine state next (.fail error written)
  | resume {point : Point} {input : Input Message Answer Error} {reply : Reply Message Answer}
      {store : Store} (hstatus : state.status = .running point)
      (hreply : (machine.action point).reply input state.store = some (reply, store))
      (hnext : next = ⟨machine.resume point reply, store⟩) : Stepped machine state next input

theorem stepped_of_step {state next : State Point Result Error}
    {input : Input Message Answer Error} (hstep : machine.step state input = some next) :
    Stepped machine state next input := by
  rw [Machine.step] at hstep
  split at hstep
  · rename_i point hstatus
    split at hstep
    · obtain ⟨store, hstore, hnext⟩ := Option.map_eq_some_iff.mp hstep
      exact Stepped.fail hstatus hstore hnext.symm
    · obtain ⟨⟨reply, store⟩, hreply, hnext⟩ := Option.map_eq_some_iff.mp hstep
      exact Stepped.resume hstatus hreply hnext.symm
  · cases hstep

theorem step_resume {state : State Point Result Error} {point : Point}
    {input : Input Message Answer Error} {reply : Reply Message Answer} {store : Store}
    (hstatus : state.status = .running point)
    (hreply : (machine.action point).reply input state.store = some (reply, store)) :
    machine.step state input = some ⟨machine.resume point reply, store⟩ := by
  rw [Machine.step, hstatus]
  cases input with
  | fail error written =>
      cases hname : machine.action point <;> rw [hname] at hreply <;> cases hreply
  | proceed | answer _ | message _ | stream _ => simp only [hreply, Option.map_some]

/-- Going on after a file operation. -/
theorem step_perform {point : Point} {operation : Operation} {store after : Store} {value : Value}
    (haction : machine.action point = .perform operation)
    (hrun : operation.run store = some (after, value)) :
    machine.step ⟨.running point, store⟩ .proceed =
      some ⟨machine.resume point (.value value), after⟩ := by
  refine step_resume rfl ?_
  rw [haction, Action.reply, hrun]
  rfl

/-- A step leaves every location its action does not write. -/
theorem step_frame {state next : State Point Result Error} {input : Input Message Answer Error}
    (hstep : machine.step state input = some next) {location : Location}
    (hlocation : ∀ point, state.status = .running point →
      location ∉ (machine.action point).written) :
    next.store location = state.store location := by
  cases stepped_of_step hstep with
  | fail hstatus hstore hnext =>
      rw [hnext]
      exact Action.interrupted_frame hstore (hlocation _ hstatus)
  | resume hstatus hreply hnext =>
      rw [hnext]
      exact Action.reply_frame hreply (hlocation _ hstatus)

/-- A predicate on points that every fitting reply keeps. -/
def Inductive (machine : Machine Point Result Message Answer Error)
    (good : Status Point Result Error → Prop) : Prop :=
  (∀ point reply, (machine.action point).Fits reply → good (.running point) →
    good (machine.resume point reply)) ∧
  ∀ point error, good (.running point) → good (.failed point error)

theorem Inductive.step {good : Status Point Result Error → Prop}
    (hgood : Inductive machine good) {state next : State Point Result Error}
    {input : Input Message Answer Error} (hstep : machine.step state input = some next)
    (hstate : good state.status) : good next.status := by
  cases stepped_of_step hstep with
  | fail hstatus hstore hnext =>
      rw [hnext]
      exact hgood.2 _ _ (hstatus ▸ hstate)
  | resume hstatus hreply hnext =>
      rw [hnext]
      exact hgood.1 _ _ (Action.fits_of_reply hreply) (hstatus ▸ hstate)

theorem Inductive.run {good : Status Point Result Error → Prop}
    (hgood : Inductive machine good) {state final : State Point Result Error}
    {inputs : List (Input Message Answer Error)}
    (hrun : Run.run machine.step state inputs = some final) (hstate : good state.status) :
    good final.status :=
  Run.invariant_run (fun state => good state.status)
    (fun _ _ _ hinv hstep => hgood.step hstep hinv) hstate hrun

/-- A whole run leaves a location that no point of it writes. -/
theorem run_frame {good : Status Point Result Error → Prop} (hgood : Inductive machine good)
    {location : Location}
    (hlocation : ∀ point, good (.running point) → location ∉ (machine.action point).written)
    {state final : State Point Result Error} {inputs : List (Input Message Answer Error)}
    (hrun : Run.run machine.step state inputs = some final) (hstate : good state.status) :
    final.store location = state.store location := by
  have hkeep : good final.status ∧ final.store location = state.store location :=
    Run.invariant_run
      (fun current => good current.status ∧ current.store location = state.store location)
      (fun current input next hinv hstep => by
        refine ⟨hgood.step hstep hinv.1, ?_⟩
        rw [← hinv.2]
        exact step_frame hstep fun point hstatus => hlocation point (hstatus ▸ hinv.1))
      ⟨hstate, rfl⟩ hrun
  exact hkeep.2

/-! ## Runs in which nothing fails -/

/-- The streams opened by going on from a state. -/
def openedAt (machine : Machine Point Result Message Answer Error)
    (state : State Point Result Error) : List Bytes :=
  match state.status with
  | .running point =>
      match machine.action point with
      | .openStream raw => [raw]
      | _ => []
  | _ => []

/-- The environment does what it is asked and hands over streams; the lists are the
streams opened and the streams taken on the way. -/
inductive Undisturbed (machine : Machine Point Result Message Answer Error) :
    State Point Result Error → List Bytes → List Bytes → State Point Result Error → Prop where
  | refl (state : State Point Result Error) : Undisturbed machine state [] [] state
  | proceed {state next final : State Point Result Error} {opened taken : List Bytes}
      (hstep : machine.step state .proceed = some next)
      (hrest : Undisturbed machine next opened taken final) :
      Undisturbed machine state (openedAt machine state ++ opened) taken final
  | stream {state next final : State Point Result Error} {opened taken : List Bytes} {raw : Bytes}
      (hstep : machine.step state (.stream raw) = some next)
      (hrest : Undisturbed machine next opened taken final) :
      Undisturbed machine state opened (raw :: taken) final

namespace Undisturbed

variable {state middle final : State Point Result Error} {opened more taken further : List Bytes}

theorem append (hfirst : Undisturbed machine state opened taken middle)
    (hsecond : Undisturbed machine middle more further final) :
    Undisturbed machine state (opened ++ more) (taken ++ further) final := by
  induction hfirst with
  | refl state => exact hsecond
  | proceed hstep hrest ih =>
      rw [List.append_assoc]
      exact .proceed hstep (ih hsecond)
  | stream hstep hrest ih => exact .stream hstep (ih hsecond)

/-- Going on at a point that opens no stream. -/
theorem quiet (hopened : openedAt machine state = [])
    (hstep : machine.step state .proceed = some middle)
    (hrest : Undisturbed machine middle opened taken final) :
    Undisturbed machine state opened taken final := by
  have hall := Undisturbed.proceed hstep hrest
  rw [hopened] at hall
  exact hall

/-- The inputs of such a run answer no question. -/
theorem exists_run (hrun : Undisturbed machine state opened taken final) :
    ∃ inputs, (∀ answer, Input.answer answer ∉ inputs) ∧
      Run.run machine.step state inputs = some final := by
  induction hrun with
  | refl state => exact ⟨[], fun _ => List.not_mem_nil, rfl⟩
  | proceed hstep hrest ih =>
      obtain ⟨inputs, hquiet, hinputs⟩ := ih
      refine ⟨.proceed :: inputs, ?_, (Run.run_cons_of_step hstep inputs).trans hinputs⟩
      exact fun answer => List.not_mem_cons_of_ne_of_not_mem (fun hsame => by cases hsame)
        (hquiet answer)
  | stream hstep hrest ih =>
      obtain ⟨inputs, hquiet, hinputs⟩ := ih
      refine ⟨.stream _ :: inputs, ?_, (Run.run_cons_of_step hstep inputs).trans hinputs⟩
      exact fun answer => List.not_mem_cons_of_ne_of_not_mem (fun hsame => by cases hsame)
        (hquiet answer)

/-- No point both goes on by itself and waits for a stream. -/
theorem not_proceed_stream {next other : State Point Result Error} {raw : Bytes}
    (hproceed : machine.step state .proceed = some next)
    (hstream : machine.step state (.stream raw) = some other) : False := by
  cases stepped_of_step hproceed with
  | resume hstatus hreply hnext =>
      cases stepped_of_step hstream with
      | resume hsame hother hlater =>
          cases hstatus.symm.trans hsame
          rw [Action.eq_of_reply_stream hother] at hreply
          cases hreply

/-- Of two such runs to which the same streams arrive, one goes on from where the other
ends. -/
theorem comparable {other : State Point Result Error} {arrivals : List Bytes}
    (hfirst : Undisturbed machine state opened taken final)
    (hsecond : Undisturbed machine state more further other)
    (htaken : taken <+: arrivals) (hfurther : further <+: arrivals) :
    (∃ rest drawn, Undisturbed machine final rest drawn other ∧ more = opened ++ rest ∧
        further = taken ++ drawn) ∨
      ∃ rest drawn, Undisturbed machine other rest drawn final ∧ opened = more ++ rest ∧
        taken = further ++ drawn := by
  induction hfirst generalizing more further arrivals with
  | refl state => exact Or.inl ⟨more, further, hsecond, rfl, rfl⟩
  | @proceed state next final opened taken hstep hrest ih =>
      cases hsecond with
      | refl _ => exact Or.inr ⟨_, taken, .proceed hstep hrest, rfl, rfl⟩
      | @proceed _ second _ later _ hother hlater =>
          have hsame : next = second := Option.some.inj (hstep.symm.trans hother)
          rw [← hsame] at hlater
          rcases ih hlater htaken hfurther with
            ⟨rest, drawn, hends, heq, hdrawn⟩ | ⟨rest, drawn, hends, heq, hdrawn⟩
          · exact Or.inl ⟨rest, drawn, hends, by rw [heq, List.append_assoc], hdrawn⟩
          · exact Or.inr ⟨rest, drawn, hends, by rw [heq, List.append_assoc], hdrawn⟩
      | stream hother hlater => exact (not_proceed_stream hstep hother).elim
  | @stream state next final opened taken raw hstep hrest ih =>
      cases hsecond with
      | refl _ => exact Or.inr ⟨opened, _, .stream hstep hrest, rfl, rfl⟩
      | proceed hother hlater => exact (not_proceed_stream hother hstep).elim
      | @stream _ second _ _ arrived _ hother hlater =>
          cases arrivals with
          | nil => exact absurd (List.prefix_nil.mp htaken) (List.cons_ne_nil _ _)
          | cons head tail =>
              obtain ⟨rfl, htail⟩ := List.cons_prefix_cons.mp htaken
              obtain ⟨rfl, hshorter⟩ := List.cons_prefix_cons.mp hfurther
              have hsame : next = second := Option.some.inj (hstep.symm.trans hother)
              rw [← hsame] at hlater
              rcases ih hlater htail hshorter with
                ⟨rest, drawn, hends, heq, hdrawn⟩ | ⟨rest, drawn, hends, heq, hdrawn⟩
              · exact Or.inl ⟨rest, drawn, hends, heq, congrArg (List.cons _) hdrawn⟩
              · exact Or.inr ⟨rest, drawn, hends, heq, congrArg (List.cons _) hdrawn⟩

end Undisturbed

end P2PFileTransfer.Foundation.Process
