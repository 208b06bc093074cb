import P2PFileTransfer.Session.Rendezvous
import P2PFileTransfer.Foundation.Run

/-!
# Who ends the race

`race_connect_and_accept` selects the first of its two futures that completes, also when
that one has failed, and the accept loop gives up at the first attempt that fails.  The
race is lost only when it should be exactly when every failing attempt comes after a
success.  Times are nanoseconds since the start of the race.
-/

namespace P2PFileTransfer.Session.Race

open P2PFileTransfer.Foundation.ByteFile
open P2PFileTransfer.Foundation.Run
open P2PFileTransfer.Core.Protocol
open P2PFileTransfer.Session.Rendezvous (Connection Inbound Outbound PeerInfo RaceEvent RaceState
  SocketAddr accept acceptFrom connect fingerprintOf peerMatches protocolMagic raceStep
  verifyClientCert verifyServerCert)

def punchTimeout : Nat := 30 * 10 ^ 9

def secondaryConnectDelay : Nat := 50 * 10 ^ 6

/-- The end of the outbound attempt, or of the next inbound one. -/
inductive Attempt where
  | outbound (outbound : Outbound)
  | inbound (inbound : Inbound)
  deriving DecidableEq, Repr

def Attempt.isOutbound : Attempt → Bool
  | .outbound _ => true
  | .inbound _ => false

/-- When which attempt ends.  There is one outbound attempt at most, and the peer that does
not go first delays it. -/
structure Schedule (weGoFirst : Bool) where
  attempts : List (Nat × Attempt)
  sorted : attempts.Pairwise fun first second => first.1 ≤ second.1
  once : (attempts.filter fun timed => timed.2.isOutbound).length ≤ 1
  delayed : ∀ timed ∈ attempts, timed.2.isOutbound = true → weGoFirst = false →
    secondaryConnectDelay ≤ timed.1

/-- The attempts that end before the timeout fires, in their order. -/
def Schedule.inTime {weGoFirst : Bool} (schedule : Schedule weGoFirst) : List Attempt :=
  (schedule.attempts.filter fun timed => decide (timed.1 ≤ punchTimeout)).map fun timed => timed.2

/-- What an attempt ends the race with; a foreign connection is dropped. -/
def Attempt.ends (sha256 : Bytes → Digest) (peer : PeerInfo) :
    Attempt → Option (Except Error Connection)
  | .outbound dialled => some (connect sha256 peer.endpoint peer.fingerprint dialled)
  | .inbound arrived => acceptFrom peer.endpoint arrived

/-- The first future that completes decides; `none` when neither does. -/
def select (sha256 : Bytes → Digest) (peer : PeerInfo) :
    List Attempt → Option (Except Error Connection)
  | [] => none
  | attempt :: rest =>
      match attempt.ends sha256 peer with
      | some outcome => some outcome
      | none => select sha256 peer rest

def raceConnectAndAccept (sha256 : Bytes → Digest) (peer : PeerInfo) {weGoFirst : Bool}
    (schedule : Schedule weGoFirst) : Except Error Connection :=
  (select sha256 peer schedule.inTime).getD
    (.error (.holePunchFailed [.text "no QUIC handshake completed"]))

/-! ## The attempts -/

/-- The handshake with the peer goes through. -/
def Attempt.Succeeds (sha256 : Bytes → Digest) (peer : PeerInfo) : Attempt → Prop
  | .outbound (.presented presented) => fingerprintOf sha256 presented.endEntity = peer.fingerprint
  | .inbound (.presented address _ magic) => address = peer.endpoint ∧ magic = protocolMagic
  | .outbound (.failed _) | .inbound (.failed _) => False

/-- The handshake fails, or its control stream is not primed with the magic. -/
def Attempt.Fails (sha256 : Bytes → Digest) (peer : PeerInfo) : Attempt → Prop
  | .outbound (.presented presented) => fingerprintOf sha256 presented.endEntity ≠ peer.fingerprint
  | .inbound (.presented _ _ magic) => magic ≠ protocolMagic
  | .outbound (.failed _) | .inbound (.failed _) => True

variable {sha256 : Bytes → Digest} {peer : PeerInfo} {attempt : Attempt} {attempts : List Attempt}

/-- What an attempt does to the race. -/
inductive Ended (sha256 : Bytes → Digest) (peer : PeerInfo) (attempt : Attempt) :
    Option (Except Error Connection) → Prop where
  | succeeds (connection : Connection) (hsucceeds : attempt.Succeeds sha256 peer)
      (hremote : connection.remoteAddress = peer.endpoint) :
      Ended sha256 peer attempt (some (.ok connection))
  | fails (error : Error) (hfails : attempt.Fails sha256 peer) :
      Ended sha256 peer attempt (some (.error error))
  | foreign (hsucceeds : ¬attempt.Succeeds sha256 peer) (hfails : ¬attempt.Fails sha256 peer) :
      Ended sha256 peer attempt none

theorem ended_ends (sha256 : Bytes → Digest) (peer : PeerInfo) (attempt : Attempt) :
    Ended sha256 peer attempt (attempt.ends sha256 peer) := by
  cases attempt with
  | outbound outbound =>
      rw [Attempt.ends]
      cases outbound with
      | failed error => exact .fails error trivial
      | presented presented =>
          by_cases hsame : fingerprintOf sha256 presented.endEntity = peer.fingerprint
          · simp only [connect, verifyServerCert, if_pos hsame]
            exact .succeeds _ hsame rfl
          · simp only [connect, verifyServerCert, if_neg hsame]
            exact .fails _ hsame
  | inbound inbound =>
      rw [Attempt.ends]
      cases inbound with
      | failed error => exact .fails error trivial
      | presented address presented magic =>
          by_cases hmagic : magic = protocolMagic
          · by_cases haddress : address = peer.endpoint
            · simp only [acceptFrom, accept, verifyClientCert, peerMatches, if_pos hmagic, haddress,
                decide_true, if_true]
              exact .succeeds _ ⟨rfl, hmagic⟩ rfl
            · simp only [acceptFrom, accept, verifyClientCert, peerMatches, if_pos hmagic, haddress,
                decide_false, Bool.false_eq_true, if_false]
              exact .foreign (fun hboth => haddress hboth.1) (fun hother => hother hmagic)
          · simp only [acceptFrom, accept, verifyClientCert, if_neg hmagic]
            exact .fails _ hmagic

/-- No attempt both succeeds and fails. -/
theorem not_fails_of_succeeds (hsucceeds : attempt.Succeeds sha256 peer) :
    ¬attempt.Fails sha256 peer := by
  intro hfails
  cases attempt with
  | outbound outbound =>
      cases outbound with
      | failed error => exact hsucceeds
      | presented presented => exact hfails hsucceeds
  | inbound inbound =>
      cases inbound with
      | failed error => exact hsucceeds
      | presented address presented magic => exact hfails hsucceeds.2

/-! ## The race -/

/-- The two futures and the sleep of the second peer make up these steps of the race. -/
theorem exists_run_select (sha256 : Bytes → Digest) (peer : PeerInfo) (connecting : Bool)
    (attempts : List Attempt) :
    ∃ events final, run (raceStep sha256 peer) (.racing connecting) events = some final ∧
      match select sha256 peer attempts with
      | some outcome => final = .done outcome
      | none => ∃ later, final = .racing later := by
  induction attempts generalizing connecting with
  | nil => exact ⟨[], .racing connecting, rfl, connecting, rfl⟩
  | cons attempt rest ih =>
      rw [select]
      cases attempt with
      | outbound outbound => exact ⟨[.slept, .outbound outbound], _, rfl, rfl⟩
      | inbound inbound =>
          rw [Attempt.ends]
          cases hturn : acceptFrom peer.endpoint inbound with
          | some outcome =>
              have hstep : raceStep sha256 peer (.racing connecting) (.inbound inbound) =
                  some (.done outcome) := by
                cases connecting <;> simp only [raceStep, hturn]
              exact ⟨[.inbound inbound], _, run_cons_of_step hstep [], rfl⟩
          | none =>
              have hstep : raceStep sha256 peer (.racing connecting) (.inbound inbound) =
                  some (.racing connecting) := by
                cases connecting <;> simp only [raceStep, hturn]
              obtain ⟨events, final, hrun, hfinal⟩ := ih connecting
              exact ⟨.inbound inbound :: events, final, (run_cons_of_step hstep events).trans hrun,
                hfinal⟩

/-- What the two futures are to make of the attempts: a connection to the peer when there is
a success, and nothing when there is none. -/
structure Decided (sha256 : Bytes → Digest) (peer : PeerInfo) (attempts : List Attempt)
    (outcome : Option (Except Error Connection)) : Prop where
  connects : (∃ attempt ∈ attempts, attempt.Succeeds sha256 peer) →
    ∃ connection, outcome = some (.ok connection) ∧ connection.remoteAddress = peer.endpoint
  waits : (¬∃ attempt ∈ attempts, attempt.Succeeds sha256 peer) → outcome = none

/-- Every failing attempt ends after one that has succeeded. -/
def FailuresLate (sha256 : Bytes → Digest) (peer : PeerInfo) (attempts : List Attempt) : Prop :=
  ∀ before failing after, attempts = before ++ failing :: after → failing.Fails sha256 peer →
    ∃ attempt ∈ before, attempt.Succeeds sha256 peer

theorem failuresLate_nil : FailuresLate sha256 peer [] := by
  intro before failing after hsplit
  cases before <;> cases hsplit

/-- A foreign connection changes nothing. -/
theorem failuresLate_cons_foreign (hsucceeds : ¬attempt.Succeeds sha256 peer)
    (hfails : ¬attempt.Fails sha256 peer) :
    FailuresLate sha256 peer (attempt :: attempts) ↔ FailuresLate sha256 peer attempts := by
  constructor
  · intro hlate before failing after hsplit hfailing
    obtain ⟨found, hfound, hsuccess⟩ :=
      hlate (attempt :: before) failing after (congrArg (List.cons attempt) hsplit) hfailing
    rcases List.mem_cons.mp hfound with rfl | hbefore
    · exact absurd hsuccess hsucceeds
    · exact ⟨found, hbefore, hsuccess⟩
  · intro hlate before failing after hsplit hfailing
    cases before with
    | nil =>
        cases hsplit
        exact absurd hfailing hfails
    | cons first before =>
        obtain ⟨rfl, hrest⟩ := List.cons.inj hsplit
        obtain ⟨found, hfound, hsuccess⟩ := hlate before failing after hrest hfailing
        exact ⟨found, List.mem_cons_of_mem _ hfound, hsuccess⟩

theorem failuresLate_cons_success (hsucceeds : attempt.Succeeds sha256 peer) :
    FailuresLate sha256 peer (attempt :: attempts) := by
  intro before failing after hsplit hfailing
  cases before with
  | nil =>
      cases hsplit
      exact absurd hfailing (not_fails_of_succeeds hsucceeds)
  | cons first before =>
      obtain ⟨rfl, _⟩ := List.cons.inj hsplit
      exact ⟨attempt, List.mem_cons_self, hsucceeds⟩

theorem select_iff (sha256 : Bytes → Digest) (peer : PeerInfo) (attempts : List Attempt) :
    Decided sha256 peer attempts (select sha256 peer attempts) ↔
      FailuresLate sha256 peer attempts := by
  induction attempts with
  | nil =>
      refine ⟨fun _ => failuresLate_nil, fun _ => ⟨?_, fun _ => rfl⟩⟩
      rintro ⟨attempt, hmem, _⟩
      exact absurd hmem List.not_mem_nil
  | cons attempt rest ih =>
      have hended := ended_ends sha256 peer attempt
      rw [select]
      generalize attempt.ends sha256 peer = outcome at hended ⊢
      cases hended with
      | succeeds connection hsucceeds hremote =>
          refine ⟨fun _ => failuresLate_cons_success hsucceeds, fun _ => ⟨?_, ?_⟩⟩
          · exact fun _ => ⟨connection, rfl, hremote⟩
          · exact fun hnone => absurd ⟨attempt, List.mem_cons_self, hsucceeds⟩ hnone
      | fails error hfails =>
          constructor
          · -- the race has ended with the error, early or in place of a success
            intro honly
            by_cases hsuccess : ∃ other ∈ attempt :: rest, other.Succeeds sha256 peer
            · obtain ⟨connection, hconnection, _⟩ := honly.connects hsuccess
              cases hconnection
            · cases honly.waits hsuccess
          · intro hlate
            obtain ⟨found, hfound, _⟩ := hlate [] attempt rest rfl hfails
            exact absurd hfound List.not_mem_nil
      | foreign hsucceeds hfails =>
          have hsame : (∃ other ∈ attempt :: rest, other.Succeeds sha256 peer) ↔
              ∃ other ∈ rest, other.Succeeds sha256 peer := by
            constructor
            · rintro ⟨other, hother, hsuccess⟩
              rcases List.mem_cons.mp hother with rfl | hrest
              · exact absurd hsuccess hsucceeds
              · exact ⟨other, hrest, hsuccess⟩
            · rintro ⟨other, hother, hsuccess⟩
              exact ⟨other, List.mem_cons_of_mem _ hother, hsuccess⟩
          rw [failuresLate_cons_foreign hsucceeds hfails, ← ih]
          constructor
          · exact fun honly => ⟨fun hsuccess => honly.connects (hsame.mpr hsuccess),
              fun hnone => honly.waits fun hsuccess => hnone (hsame.mp hsuccess)⟩
          · exact fun honly => ⟨fun hsuccess => honly.connects (hsame.mp hsuccess),
              fun hnone => honly.waits fun hsuccess => hnone (hsame.mpr hsuccess)⟩

/-- The race yields a connection to the peer when an attempt succeeds in time, and goes on
until the timeout when none does. -/
structure FailsOnlyTogether (sha256 : Bytes → Digest) (peer : PeerInfo) {weGoFirst : Bool}
    (schedule : Schedule weGoFirst) : Prop where
  connects : (∃ attempt ∈ schedule.inTime, attempt.Succeeds sha256 peer) →
    ∃ connection, raceConnectAndAccept sha256 peer schedule = .ok connection ∧
      connection.remoteAddress = peer.endpoint
  waits : (¬∃ attempt ∈ schedule.inTime, attempt.Succeeds sha256 peer) →
    select sha256 peer schedule.inTime = none

theorem raceConnectAndAccept_eq_ok {weGoFirst : Bool} {schedule : Schedule weGoFirst}
    {connection : Connection} :
    raceConnectAndAccept sha256 peer schedule = .ok connection ↔
      select sha256 peer schedule.inTime = some (.ok connection) := by
  rw [raceConnectAndAccept]
  cases select sha256 peer schedule.inTime with
  | none =>
      constructor
      · intro hresult
        cases hresult
      · intro hnone
        cases hnone
  | some outcome =>
      rw [Option.getD_some]
      exact ⟨congrArg some, Option.some.inj⟩

/-- The punch fails only when both directions do exactly when every attempt that fails in
time comes after one that has succeeded. -/
theorem punch_iff (sha256 : Bytes → Digest) (peer : PeerInfo) {weGoFirst : Bool}
    (schedule : Schedule weGoFirst) :
    FailsOnlyTogether sha256 peer schedule ↔ FailuresLate sha256 peer schedule.inTime := by
  rw [← select_iff]
  constructor
  · intro honly
    refine ⟨?_, honly.waits⟩
    intro hsuccess
    obtain ⟨connection, hresult, hremote⟩ := honly.connects hsuccess
    exact ⟨connection, raceConnectAndAccept_eq_ok.mp hresult, hremote⟩
  · intro hdecided
    refine ⟨?_, hdecided.waits⟩
    intro hsuccess
    obtain ⟨connection, hresult, hremote⟩ := hdecided.connects hsuccess
    exact ⟨connection, raceConnectAndAccept_eq_ok.mpr hresult, hremote⟩

/-! ## A stranger ends the race -/

def strangerAddr : SocketAddr := ⟨[198, 51, 100, 7], 4444⟩

def expectedPeer : PeerInfo := ⟨⟨[192, 0, 2, 1], 5555⟩, FixedBytes.filled 32 0, FixedBytes.filled 16 1⟩

/-- A stranger primes its control stream with something else, and the outbound handshake
would succeed a moment later. -/
def disturbed : Schedule true where
  attempts := [(1, .inbound (.presented strangerAddr ⟨[], []⟩ [0, 0, 0, 0])),
    (2, .outbound (.presented ⟨[], []⟩))]
  sorted := by decide
  once := by decide
  delayed := by decide

theorem stranger_ends_race :
    (∃ error, raceConnectAndAccept (fun _ => FixedBytes.filled 32 0) expectedPeer disturbed =
        .error error) ∧
      ¬ ∀ (sha256 : Bytes → Digest) (peer : PeerInfo) (schedule : Schedule true),
        FailsOnlyTogether sha256 peer schedule := by
  refine ⟨⟨_, rfl⟩, ?_⟩
  intro hclaim
  have honly := hclaim (fun _ => FixedBytes.filled 32 0) expectedPeer disturbed
  have hmem : Attempt.outbound (.presented ⟨[], []⟩) ∈ disturbed.inTime := by decide
  obtain ⟨connection, hconnection, _⟩ := honly.connects ⟨_, hmem, rfl⟩
  cases hconnection

end P2PFileTransfer.Session.Race
