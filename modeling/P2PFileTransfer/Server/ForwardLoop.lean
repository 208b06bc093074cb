import Mathlib.Data.Rat.Defs
import Mathlib.Algebra.Order.Ring.Rat
import P2PFileTransfer.Foundation.Buckets
import P2PFileTransfer.Server.RelayWire

/-!
# The bandwidth cap of the relay

`forward_loop` with the token bucket in front of it: every datagram tops the bucket up and is
dropped when its length is not in there.  The bucket starts with a full second of the cap and
holds half a second from its first refill on.  Tokens are rational instead of floating point
numbers, and a datagram carries the instants at which the bucket and the sessions are looked
at.
-/

namespace P2PFileTransfer.Server.ForwardLoop

open P2PFileTransfer.Foundation.Buckets
open P2PFileTransfer.Foundation.Run (Along along_of_forall invariant_along invariant_run)
open P2PFileTransfer.Core.Protocol (Fingerprint FixedBytes)
open P2PFileTransfer.Session.Rendezvous (SocketAddr)
open P2PFileTransfer.Server.Relay (Datagram RelayState Session SessionToken)
open P2PFileTransfer.Server.RelayIndex (Bound Ordered Slot ordered_default)
open P2PFileTransfer.Server.RelayIsolation (Fresh firstPeer helloWith secondPeer sharedToken)
open P2PFileTransfer.Server.RelayWire

/-- The clock of the relay counts nanoseconds. -/
def seconds (instant : Nat) : ℚ := instant / 10 ^ 9

/-- `sent` is only recorded: when the datagrams that were sent on had come in, and their
lengths, the last one first. -/
structure Loop where
  state : RelayState
  bucket : TokenBucket ℚ
  sent : List (ℚ × ℚ)

def Loop.start (bandwidthCapBps now : Nat) : Loop where
  state := .default
  bucket :=
    { tokens := bandwidthCapBps
      capacity := bandwidthCapBps / 2
      refillRate := bandwidthCapBps
      lastRefill := seconds now }
  sent := []

inductive Event where
  | reserve (token : SessionToken) (peerAFp peerBFp : Fingerprint) (now : Nat)
  | datagram (source : SocketAddr) (datagram : Datagram) (received now : Nat)
  | sweep (now : Nat)

/-- Whether the cap lets a datagram through, and the bucket after it.  A dropped datagram has
topped the bucket up, too. -/
def meter (bandwidthCapBps : Nat) (bucket : TokenBucket ℚ) (length received : Nat) :
    Bool × TokenBucket ℚ :=
  if 0 < bandwidthCapBps then
    match (bucket.refill (seconds received)).take length with
    | none => (false, bucket.refill (seconds received))
    | some left => (true, left)
  else (true, bucket)

/-- The event as the sessions see it. -/
def Loop.seen (bandwidthCapBps : Nat) (loop : Loop) : Event → Relay.Event
  | .reserve token peerAFp peerBFp now => .reserve token peerAFp peerBFp now
  | .datagram source datagram received now =>
      .datagram source datagram
        (meter bandwidthCapBps loop.bucket datagram.bytes.length received).1 now
  | .sweep now => .sweep now

def Loop.emitted (bandwidthCapBps : Nat) (loop : Loop) (event : Event) :
    Option (SocketAddr × List UInt8) :=
  (Relay.step loop.state (loop.seen bandwidthCapBps event)).2

def Loop.after (bandwidthCapBps : Nat) (loop : Loop) (event : Event) : Loop :=
  let state := (Relay.step loop.state (loop.seen bandwidthCapBps event)).1
  match event with
  | .reserve _ _ _ _ | .sweep _ => { loop with state := state }
  | .datagram _ datagram received _ =>
      { state := state
        bucket := (meter bandwidthCapBps loop.bucket datagram.bytes.length received).2
        sent :=
          match loop.emitted bandwidthCapBps event with
          | none => loop.sent
          | some (_, bytes) => (seconds received, (bytes.length : ℚ)) :: loop.sent }

def step (bandwidthCapBps : Nat) (loop : Loop) (event : Event) : Option Loop :=
  some (loop.after bandwidthCapBps event)

abbrev run (bandwidthCapBps : Nat) : Loop → List Event → Option Loop :=
  Foundation.Run.run (step bandwidthCapBps)

/-- The clock does not run backwards between two datagrams. -/
def Timely (loop : Loop) : Event → Prop
  | .datagram _ _ received _ => loop.bucket.lastRefill ≤ seconds received
  | .reserve _ _ _ _ | .sweep _ => True

variable {bandwidthCapBps : Nat} {loop next : Loop} {event : Event}

/-! ## The bucket -/

/-- A bucket of the relay: as it was at the start, or metered since its first refill. -/
def Meters (bandwidthCapBps : Nat) (loop : Loop) : Prop :=
  loop.bucket.capacity = bandwidthCapBps / 2 ∧ loop.bucket.refillRate = bandwidthCapBps ∧
    (loop.bucket.tokens = bandwidthCapBps ∧ loop.sent = [] ∨
      ∃ log, Metered loop.bucket log ∧ List.Sublist loop.sent log ∧ ∀ entry ∈ log, 0 ≤ entry.2)

theorem meters_start (bandwidthCapBps now : Nat) :
    Meters bandwidthCapBps (.start bandwidthCapBps now) := ⟨rfl, rfl, .inl ⟨rfl, rfl⟩⟩

/-- The first refill cuts the bucket down to what it holds. -/
theorem metered_refill (hmeters : Meters bandwidthCapBps loop) {received : Nat}
    (htimely : loop.bucket.lastRefill ≤ seconds received) :
    ∃ log, Metered (loop.bucket.refill (seconds received)) log ∧ List.Sublist loop.sent log ∧
      ∀ entry ∈ log, 0 ≤ entry.2 := by
  obtain ⟨hcapacity, hrate, ⟨htokens, hsent⟩ | ⟨log, hmetered, hsublist, hnonneg⟩⟩ := hmeters
  · have hcap : (0 : ℚ) ≤ bandwidthCapBps := Nat.cast_nonneg _
    have hflow : 0 ≤ (seconds received - loop.bucket.lastRefill) * bandwidthCapBps :=
      mul_nonneg (sub_nonneg.mpr htimely) hcap
    have hhalf : (bandwidthCapBps : ℚ) / 2 ≤ bandwidthCapBps := half_le_self hcap
    have hfull : loop.bucket.refill (seconds received) =
        TokenBucket.full (bandwidthCapBps / 2 : ℚ) bandwidthCapBps (seconds received) := by
      simp only [TokenBucket.refill, TokenBucket.full, hcapacity, hrate, htokens]
      rw [min_eq_right (le_trans hhalf (le_add_of_nonneg_right hflow))]
    rw [hfull, hsent]
    exact ⟨[], metered_full (div_nonneg hcap (by decide)) hcap, List.Sublist.refl _, nofun⟩
  · have hcap : 0 ≤ loop.bucket.refillRate := hrate ▸ Nat.cast_nonneg _
    exact ⟨log, hmetered.refill hcap htimely, hsublist, hnonneg⟩

/-- A datagram that is sent on is sent on whole, and only if the cap lets it through. -/
theorem length_of_emitted {state : RelayState} {source destination : SocketAddr}
    {datagram : Datagram} {admitted : Bool} {now : Nat} {bytes : List UInt8}
    (hemitted : (Relay.step state (.datagram source datagram admitted now)).2 =
      some (destination, bytes)) : admitted = true ∧ bytes = datagram.bytes := by
  have hmoved := RelayIsolation.moved_step state (.datagram source datagram admitted now)
  rw [hemitted] at hmoved
  revert hmoved
  generalize (Relay.step state (.datagram source datagram admitted now)).1 = after
  intro hmoved
  cases hmoved with
  | touched _ _ _ _ hsent =>
      rcases hsent with hnone | hsome
      · cases hnone
      · obtain ⟨dest, _, hdest⟩ := Option.map_eq_some_iff.mp hsome.symm
        cases hdest
        exact ⟨rfl, rfl⟩

/-- What passes the cap is taken out of the bucket. -/
theorem meter_cases (hcap : 0 < bandwidthCapBps) (bucket : TokenBucket ℚ) (length received : Nat) :
    (∃ left, (bucket.refill (seconds received)).take length = some left ∧
      meter bandwidthCapBps bucket length received = (true, left)) ∨
    ((bucket.refill (seconds received)).take length = none ∧
      meter bandwidthCapBps bucket length received =
        (false, bucket.refill (seconds received))) := by
  rw [meter, if_pos hcap]
  cases htake : (bucket.refill (seconds received)).take length with
  | none => exact .inr ⟨rfl, rfl⟩
  | some left => exact .inl ⟨left, rfl, rfl⟩

theorem meters_after (hcap : 0 < bandwidthCapBps) (hmeters : Meters bandwidthCapBps loop)
    (htimely : Timely loop event) : Meters bandwidthCapBps (loop.after bandwidthCapBps event) := by
  cases event with
  | reserve _ _ _ _ | sweep _ => exact hmeters
  | datagram source datagram received now =>
      obtain ⟨log, hmetered, hsublist, hnonneg⟩ := metered_refill hmeters htimely
      obtain ⟨hcapacity, hrate, _⟩ := hmeters
      simp only [Meters, Loop.after, Loop.emitted, Loop.seen]
      rcases meter_cases hcap loop.bucket datagram.bytes.length received with
        ⟨left, htake, hmeter⟩ | ⟨_, hmeter⟩
      · have hcharged := hmetered.take (hrate ▸ Nat.cast_nonneg _) (Nat.cast_nonneg _) htake
        obtain ⟨_, rfl⟩ := take_eq_some htake
        rw [hmeter]
        refine ⟨hcapacity, hrate, .inr ⟨_, hcharged, ?_, ?_⟩⟩
        · split
          · exact hsublist.cons _
          · rename_i destination bytes hemitted
            rw [(length_of_emitted hemitted).2]
            exact hsublist.cons_cons _
        · intro entry hentry
          rcases List.mem_cons.mp hentry with rfl | hold
          · exact Nat.cast_nonneg _
          · exact hnonneg entry hold
      · rw [hmeter]
        refine ⟨hcapacity, hrate, .inr ⟨log, hmetered, ?_, hnonneg⟩⟩
        split
        · exact hsublist
        · rename_i hemitted
          cases (length_of_emitted hemitted).1

theorem meters_of_run (hcap : 0 < bandwidthCapBps) {now : Nat} {events : List Event}
    (htimely : Along (step bandwidthCapBps) Timely (.start bandwidthCapBps now) events)
    (hrun : run bandwidthCapBps (.start bandwidthCapBps now) events = some loop) :
    Meters bandwidthCapBps loop := by
  refine invariant_along (Meters bandwidthCapBps) (fun loop event next hmeters hallowed hstep => ?_)
    htimely (meters_start bandwidthCapBps now) hrun
  cases hstep
  exact meters_after hcap hmeters hallowed

/-! ## What is forwarded -/

/-- The counter of the relay grows by what is sent on. -/
theorem bytesForwarded_step (state : RelayState) (event : Relay.Event) :
    (Relay.step state event).1.bytesForwarded = state.bytesForwarded +
      (match (Relay.step state event).2 with
        | none => 0
        | some (_, bytes) => bytes.length) := by
  cases event with
  | reserve token peerAFp peerBFp now =>
      simp only [Relay.step, RelayState.reserve]
      split
      · rfl
      · rename_i hreserved
        split at hreserved <;> cases hreserved
        rfl
  | sweep now => exact RelayEviction.bytesForwarded_foldl_forget _
  | datagram source datagram admitted now =>
      cases admitted with
      | false => rfl
      | true =>
          simp only [Relay.step, RelayState.receive]
          cases state.addrToToken.lookup source with
          | none =>
              dsimp only
              cases Relay.RelayHello.tryDecode (datagram.bytes.take Relay.recvBufBytes) with
              | none => rfl
              | some hello =>
                  simp only [RelayState.welcome]
                  split
                  · rfl
                  · split <;> rfl
          | some token =>
              simp only [RelayState.forward]
              split
              · rfl
              · split <;> rfl

/-- The record of what was sent on accounts for the counter. -/
def Recorded (loop : Loop) : Prop :=
  (loop.sent.map Prod.snd).sum = (loop.state.bytesForwarded : ℚ)

theorem recorded_after (hrecorded : Recorded loop) :
    Recorded (loop.after bandwidthCapBps event) := by
  have hcount := bytesForwarded_step loop.state (loop.seen bandwidthCapBps event)
  cases event with
  | reserve token peerAFp peerBFp now =>
      have hnone : (Relay.step loop.state (.reserve token peerAFp peerBFp now)).2 = none := by
        simp only [Relay.step]
        split <;> rfl
      simp only [Loop.seen, hnone, Nat.add_zero] at hcount
      exact hrecorded.trans (congrArg Nat.cast hcount.symm)
  | sweep now =>
      exact hrecorded.trans (congrArg Nat.cast hcount.symm)
  | datagram source datagram received now =>
      simp only [Recorded, Loop.after, Loop.emitted] at hrecorded ⊢
      cases hemitted : (Relay.step loop.state
          (loop.seen bandwidthCapBps (.datagram source datagram received now))).2 with
      | none =>
          rw [hemitted, Nat.add_zero] at hcount
          exact hrecorded.trans (congrArg Nat.cast hcount.symm)
      | some sent =>
          rw [hemitted] at hcount
          rw [List.map_cons, List.sum_cons, hrecorded, hcount, Nat.cast_add, add_comm]

theorem recorded_start (bandwidthCapBps now : Nat) : Recorded (.start bandwidthCapBps now) :=
  Nat.cast_zero.symm

theorem recorded_of_run {now : Nat} {events : List Event}
    (hrun : run bandwidthCapBps (.start bandwidthCapBps now) events = some loop) : Recorded loop := by
  refine invariant_run Recorded (fun loop event next hrecorded hstep => ?_)
    (recorded_start bandwidthCapBps now) hrun
  cases hstep
  exact recorded_after hrecorded

/-- In no stretch of time does the relay send on more than half a second of its cap and what
the cap allows meanwhile; the counter is the sum of what it has sent on. -/
theorem relay_rate (hcap : 0 < bandwidthCapBps) {now : Nat} {events : List Event}
    (htimely : Along (step bandwidthCapBps) Timely (.start bandwidthCapBps now) events)
    (hrun : run bandwidthCapBps (.start bandwidthCapBps now) events = some loop) :
    (∀ first last, first ≤ last → takenBetween loop.sent first last ≤
      (bandwidthCapBps : ℚ) / 2 + bandwidthCapBps * (last - first)) ∧
    (loop.sent.map Prod.snd).sum = (loop.state.bytesForwarded : ℚ) := by
  refine ⟨fun first last hle => ?_, recorded_of_run hrun⟩
  have hlength : (0 : ℚ) ≤ bandwidthCapBps := Nat.cast_nonneg _
  obtain ⟨hcapacity, hrate, ⟨_, hsent⟩ | ⟨log, hmetered, hsublist, hnonneg⟩⟩ :=
    meters_of_run hcap htimely hrun
  · rw [hsent]
    exact add_nonneg (div_nonneg hlength (by decide))
      (mul_nonneg hlength (sub_nonneg.mpr hle))
  · rw [← hcapacity, ← hrate]
    exact le_trans (takenBetween_le_of_sublist hsublist hnonneg first last)
      (hmetered.windows first last hle)

theorem seconds_le {first last : Nat} (hle : first ≤ last) : seconds first ≤ seconds last :=
  div_le_div_of_nonneg_right (Nat.cast_le.mpr hle) (by positivity)

/-- A reservation for two certificates, the hellos of their holders, and a datagram. -/
def meeting : List Event :=
  [.reserve sharedToken (FixedBytes.filled 32 1) (FixedBytes.filled 32 2) 0,
    .datagram firstPeer (helloWith 1) 1 1, .datagram secondPeer (helloWith 2) 2 2,
    .datagram firstPeer ⟨[1, 2, 3], Nat.le_of_ble_eq_true rfl⟩ 3 3]

theorem lastRefill_after (hcap : 0 < bandwidthCapBps) (loop : Loop) (source : SocketAddr)
    (datagram : Datagram) (received now : Nat) :
    (loop.after bandwidthCapBps (.datagram source datagram received now)).bucket.lastRefill =
      seconds received := by
  simp only [Loop.after]
  rcases meter_cases hcap loop.bucket datagram.bytes.length received with
    ⟨left, htake, hmeter⟩ | ⟨_, hmeter⟩
  · obtain ⟨_, rfl⟩ := take_eq_some htake
    rw [hmeter]
    rfl
  · rw [hmeter]
    rfl

theorem timely_meeting : Along (step 1000) Timely (.start 1000 0) meeting := by
  refine ⟨trivial, fun _ hreserved => ?_⟩
  cases hreserved
  refine ⟨seconds_le (Nat.zero_le 1), fun _ hfirst => ?_⟩
  cases hfirst
  refine ⟨(lastRefill_after (by decide) _ _ _ _ _).trans_le (seconds_le (by decide)), fun _ hsecond => ?_⟩
  cases hsecond
  exact ⟨(lastRefill_after (by decide) _ _ _ _ _).trans_le (seconds_le (by decide)),
    fun _ _ => trivial⟩

theorem relay_rate_meeting : ∃ loop, run 1000 (.start 1000 0) meeting = some loop ∧
    takenBetween loop.sent 0 1 ≤ 1500 := by
  refine ⟨_, rfl, ?_⟩
  have hrate := (relay_rate (by decide) timely_meeting rfl).1 0 1 (by decide)
  exact le_trans hrate (by norm_num)

/-! ## What passes the cap -/

theorem admitted_iff_take (hcap : 0 < bandwidthCapBps) (bucket : TokenBucket ℚ)
    (length received : Nat) : (meter bandwidthCapBps bucket length received).1 = true ↔
      (length : ℚ) ≤ (bucket.refill (seconds received)).tokens := by
  rcases meter_cases hcap bucket length received with ⟨left, htake, hmeter⟩ | ⟨htake, hmeter⟩
  · rw [hmeter]
    exact iff_of_true rfl (take_eq_some htake).1
  · rw [hmeter]
    exact iff_of_false Bool.false_ne_true (not_le.mpr (take_eq_none.mp htake))

theorem tokens_nonneg (hmeters : Meters bandwidthCapBps loop) : 0 ≤ loop.bucket.tokens := by
  obtain ⟨_, _, ⟨htokens, _⟩ | ⟨_, hmetered, _⟩⟩ := hmeters
  · rw [htokens]
    exact Nat.cast_nonneg _
  · exact hmetered.nonneg

/-- After a silence in which its length flows in, a datagram passes the cap exactly when half
a second of the cap holds it. -/
theorem admitted_iff (hcap : 0 < bandwidthCapBps) {now : Nat} {events : List Event}
    (htimely : Along (step bandwidthCapBps) Timely (.start bandwidthCapBps now) events)
    (hrun : run bandwidthCapBps (.start bandwidthCapBps now) events = some loop)
    {length received : Nat}
    (hsilence : loop.bucket.lastRefill + (length : ℚ) / bandwidthCapBps ≤ seconds received) :
    (meter bandwidthCapBps loop.bucket length received).1 = true ↔ 2 * length ≤ bandwidthCapBps := by
  have hmeters := meters_of_run hcap htimely hrun
  have hcapacity := hmeters.1
  have hrate := hmeters.2.1
  have hpositive : (0 : ℚ) < bandwidthCapBps := Nat.cast_pos.mpr hcap
  have hhalf : 2 * length ≤ bandwidthCapBps ↔ (length : ℚ) ≤ loop.bucket.capacity := by
    rw [hcapacity, le_div_iff₀' (by decide)]
    norm_cast
  rw [admitted_iff_take hcap, hhalf]
  constructor
  · exact fun hless => le_trans hless tokens_refill_le
  · intro hfits
    refine le_tokens_refill (hrate ▸ hpositive) hfits (le_trans ?_ hsilence)
    rw [hrate]
    refine add_le_add (le_refl _) (div_le_div_of_nonneg_right ?_ hpositive.le)
    exact sub_le_self _ (tokens_nonneg hmeters)

/-- A cap of 2400 bytes a second is the least that datagrams of 1200 bytes can pass. -/
theorem admitted_iff_initial :
    (meter 2400 (Loop.start 2400 0).bucket 1200 (10 ^ 9)).1 = true ↔ 2 * 1200 ≤ 2400 :=
  @admitted_iff 2400 _ (by decide) 0 [] trivial rfl 1200 (10 ^ 9) (by decide +kernel)

/-! ## The wire behind the cap -/

/-- The datagrams the relay sends to an address in a run, in order. -/
def delivered (bandwidthCapBps : Nat) (address : SocketAddr) : Loop → List Event → List (List UInt8)
  | _, [] => []
  | loop, event :: rest =>
      sentTo address (loop.emitted bandwidthCapBps event) ++
        delivered bandwidthCapBps address (loop.after bandwidthCapBps event) rest

/-- The datagrams from an address that pass the cap in a run, in order. -/
def passed (bandwidthCapBps : Nat) (address : SocketAddr) : Loop → List Event → List (List UInt8)
  | _, [] => []
  | loop, event :: rest =>
      admittedOf address (loop.seen bandwidthCapBps event) ++
        passed bandwidthCapBps address (loop.after bandwidthCapBps event) rest

/-- A step of the loop is a step of the sessions. -/
theorem state_after (loop : Loop) (event : Event) :
    (loop.after bandwidthCapBps event).state =
      (Relay.step loop.state (loop.seen bandwidthCapBps event)).1 := by
  cases event <;> rfl

variable {token : SessionToken} {first second : SocketAddr}

theorem delivered_of_linked (hlinked : Linked loop.state token first second) {later : List Event}
    (hlively : Along (step bandwidthCapBps)
      (fun loop event => Lively token loop.state (loop.seen bandwidthCapBps event)) loop later) :
    delivered bandwidthCapBps second loop later = passed bandwidthCapBps first loop later := by
  induction later generalizing loop with
  | nil => rfl
  | cons event rest ih =>
      have hnext : Linked (loop.after bandwidthCapBps event).state token first second := by
        rw [state_after]
        exact hlinked.step hlively.1
      rw [delivered, passed, ih hnext (hlively.2 _ rfl)]
      exact congrArg (· ++ _) (hlinked.sentTo_step _)

theorem ordered_of_run {now : Nat} {events : List Event}
    (hfresh : Along (step bandwidthCapBps)
      (fun loop event => Fresh loop.state (loop.seen bandwidthCapBps event))
      (.start bandwidthCapBps now) events)
    (hrun : run bandwidthCapBps (.start bandwidthCapBps now) events = some loop) :
    Ordered loop.state := by
  refine invariant_along (fun loop => Ordered loop.state) (fun loop event next hordered hallowed hstep => ?_)
    hfresh ordered_default hrun
  cases hstep
  rw [state_after]
  exact hordered.step hallowed

/-- Once both peers of a session have arrived, and as long as no sweep finds it silent for too
long, each of them is sent exactly what the other sends and the cap lets through, unchanged and
in order, whatever else reaches the relay. -/
theorem relay_wire {now : Nat} {events : List Event}
    (hfresh : Along (step bandwidthCapBps)
      (fun loop event => Fresh loop.state (loop.seen bandwidthCapBps event))
      (.start bandwidthCapBps now) events)
    (hrun : run bandwidthCapBps (.start bandwidthCapBps now) events = some loop) {session : Session}
    {slot : Slot} (hsession : loop.state.sessions.lookup token = some session)
    (hfirst : Bound session slot first) (hsecond : Bound session slot.other second)
    {later : List Event}
    (hlively : Along (step bandwidthCapBps)
      (fun loop event => Lively token loop.state (loop.seen bandwidthCapBps event)) loop later) :
    delivered bandwidthCapBps second loop later = passed bandwidthCapBps first loop later ∧
      delivered bandwidthCapBps first loop later = passed bandwidthCapBps second loop later := by
  have hlinked : Linked loop.state token first second :=
    ⟨ordered_of_run hfresh hrun, session, slot, hsession, hfirst, hsecond⟩
  exact ⟨delivered_of_linked hlinked hlively, delivered_of_linked hlinked.symm hlively⟩

/-- Both peers talk, a third address interferes, and a sweep comes by. -/
def chatter : List Event :=
  [.datagram ⟨[10, 0, 0, 3], 1⟩ ⟨[9], by decide⟩ 4 4, .sweep (10 ^ 9),
    .datagram secondPeer ⟨[2], by decide⟩ (2 * 10 ^ 9) (2 * 10 ^ 9),
    .datagram firstPeer ⟨[4], by decide⟩ (3 * 10 ^ 9) (3 * 10 ^ 9)]

theorem fresh_meeting : Along (step 0) (fun loop event => Fresh loop.state (loop.seen 0 event))
    (.start 0 0) meeting := by
  refine ⟨rfl, fun _ _ => along_of_forall (fun _ event hevent => ?_) _⟩
  simp only [List.mem_cons, List.not_mem_nil, or_false] at hevent
  rcases hevent with rfl | rfl | rfl <;> trivial

theorem lively_chatter {loop : Loop} (hrun : run 0 (.start 0 0) meeting = some loop) :
    Along (step 0) (fun loop event => Lively sharedToken loop.state (loop.seen 0 event)) loop
      chatter := by
  cases hrun
  refine ⟨⟨trivial, nofun⟩, fun _ hfirst => ?_⟩
  cases hfirst
  refine ⟨⟨trivial, fun now hnow => ?_⟩, fun _ _ => ?_⟩
  · cases hnow
    rintro ⟨session, hsession, ⟨⟨slot, hslot⟩, _⟩ | ⟨_, hidle⟩⟩
    · cases hsession
      cases slot <;> cases hslot
    · cases hsession
      exact absurd hidle (by decide)
  · refine along_of_forall (fun _ event hevent => ?_) _
    simp only [List.mem_cons, List.not_mem_nil, or_false] at hevent
    rcases hevent with rfl | rfl <;> exact ⟨trivial, nofun⟩

theorem relay_wire_chatter : ∃ loop, run 0 (.start 0 0) meeting = some loop ∧
    delivered 0 secondPeer loop chatter = [[4]] ∧ delivered 0 firstPeer loop chatter = [[2]] := by
  obtain ⟨loop, session, hrun, hsession, hfirst, hsecond⟩ : ∃ loop session,
      run 0 (.start 0 0) meeting = some loop ∧
        loop.state.sessions.lookup sharedToken = some session ∧ Bound session .a firstPeer ∧
          Bound session .b secondPeer := ⟨_, _, rfl, rfl, ⟨_, rfl, rfl⟩, ⟨_, rfl, rfl⟩⟩
  exact ⟨loop, hrun, relay_wire fresh_meeting hrun hsession hfirst hsecond (lively_chatter hrun)⟩

end P2PFileTransfer.Server.ForwardLoop
