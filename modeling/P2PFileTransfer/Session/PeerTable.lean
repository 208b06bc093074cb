import P2PFileTransfer.Core.Discovery
import P2PFileTransfer.Foundation.Run

/-!
# The peer table over time

The table has an entry for every device that was heard lately and none for one that has been
silent.  What the entry says is what the first beacon of its life said.
-/

namespace P2PFileTransfer.Session.PeerTable

open P2PFileTransfer.Foundation.ByteFile
open P2PFileTransfer.Foundation.Run
open P2PFileTransfer.Foundation.Tables
open P2PFileTransfer.Core.Protocol
open P2PFileTransfer.Core.Discovery

/-- The last beacon of a device. -/
structure Heard where
  beacon : DiscoveryBeacon
  address : Bytes
  time : Nat

/-- `due` is when the cleanup task has its turn at the latest; `heard` is kept for the
statements only. -/
structure State where
  manager : DiscoveryManager
  now : Nat
  due : Nat
  heard : Uuid → Option Heard

inductive Event where
  | received (datagram : Option DiscoveryBeacon) (address : Bytes)
  | cleanup
  | elapse (duration : Nat)

def State.hear (state : State) (datagram : Option DiscoveryBeacon) (address : Bytes) :
    Uuid → Option Heard :=
  match recvBeacon datagram with
  | .error _ => state.heard
  | .ok beacon => Function.update state.heard beacon.deviceId (some ⟨beacon, address, state.now⟩)

/-- The cleanup task has a turn at least once in its interval. -/
def step (state : State) : Event → Option State
  | .received datagram address =>
      some { state with
        manager := state.manager.receive datagram address state.now
        heard := state.hear datagram address }
  | .cleanup =>
      some { state with
        manager := state.manager.cleanup state.now
        due := state.now + cleanupInterval }
  | .elapse duration =>
      if state.now + duration ≤ state.due then some { state with now := state.now + duration }
      else none

def start (deviceId : Uuid) (peerTtl : Nat) : State := ⟨⟨deviceId, ∅, peerTtl⟩, 0, 0, fun _ => none⟩

/-- The entry says what the beacon said. -/
structure Tells (info : PeerInfo) (beacon : DiscoveryBeacon) (address : Bytes) : Prop where
  address : info.address = address
  port : info.port = beacon.port
  deviceName : info.deviceName = beacon.deviceName
  certFingerprint : info.certFingerprint = beacon.certFingerprint

/-- What the table is to be at any moment. -/
structure Reflects (state : State) : Prop where
  latest : ∀ deviceId heard, deviceId ≠ state.manager.deviceId → state.heard deviceId = some heard →
    state.now - heard.time < state.manager.peerTtl →
      ∃ info, state.manager.getPeers.filter (fun peer => peer.deviceId = deviceId) = [info] ∧
        Tells info heard.beacon heard.address
  foreign : ∀ info ∈ state.manager.getPeers, info.deviceId ≠ state.manager.deviceId
  silent : ∀ info ∈ state.manager.getPeers, ∃ heard, state.heard info.deviceId = some heard ∧
    state.now - heard.time ≤ state.manager.peerTtl + cleanupInterval

/-- A beacon of a device that has an entry says the same as the entry. -/
def Repeats (state : State) (event : Event) : Prop :=
  ∀ datagram address beacon existing, event = .received datagram address →
    recvBeacon datagram = .ok beacon → beacon.deviceId ≠ state.manager.deviceId →
      0 < state.manager.peerTtl → state.manager.peers.lookup beacon.deviceId = some existing →
        Tells existing beacon address

/-- Every entry is one of a foreign device that was heard, and was alive at the last cleanup
or has been heard since; every device that was heard lately has an entry. -/
structure Kept (state : State) : Prop where
  entry : ∀ deviceId info, state.manager.peers.lookup deviceId = some info →
    info.deviceId = deviceId ∧ deviceId ≠ state.manager.deviceId ∧
      state.due ≤ info.lastSeen + state.manager.peerTtl + cleanupInterval ∧
        ∃ heard, state.heard deviceId = some heard ∧ heard.time = info.lastSeen ∧
          (0 < state.manager.peerTtl → Tells info heard.beacon heard.address)
  present : ∀ deviceId heard, deviceId ≠ state.manager.deviceId →
    state.heard deviceId = some heard → heard.time ≤ state.now ∧
      (state.now - heard.time < state.manager.peerTtl →
        ∃ info, state.manager.peers.lookup deviceId = some info)
  now_le : state.now ≤ state.due
  due_le : state.due ≤ state.now + cleanupInterval

variable {state next : State} {event : Event} {deviceId : Uuid} {info : PeerInfo}

/-! ## The table -/

theorem mem_getPeers {manager : DiscoveryManager} :
    info ∈ manager.getPeers ↔ ∃ deviceId, manager.peers.lookup deviceId = some info := by
  rw [DiscoveryManager.getPeers, List.mem_map]
  constructor
  · rintro ⟨⟨deviceId, other⟩, hentry, rfl⟩
    exact ⟨deviceId, lookup_eq_some_iff.mpr hentry⟩
  · rintro ⟨deviceId, hlookup⟩
    exact ⟨⟨deviceId, info⟩, lookup_eq_some_iff.mp hlookup, rfl⟩

/-- A key has one entry. -/
theorem filter_getPeers {manager : DiscoveryManager}
    (hkeys : ∀ deviceId info, manager.peers.lookup deviceId = some info → info.deviceId = deviceId)
    (hlookup : manager.peers.lookup deviceId = some info) :
    manager.getPeers.filter (fun peer => peer.deviceId = deviceId) = [info] := by
  have hsame : ∀ entry ∈ manager.peers.entries,
      decide (entry.2.deviceId = deviceId) = decide (entry.1 = deviceId) := by
    rintro ⟨key, value⟩ hentry
    rw [hkeys key value (lookup_eq_some_iff.mpr hentry)]
  rw [DiscoveryManager.getPeers, List.filter_map]
  change (manager.peers.entries.filter fun entry => decide (entry.2.deviceId = deviceId)).map _ = _
  rw [List.filter_congr hsame, filter_entries hlookup]
  rfl

theorem Kept.reflects (hkept : Kept state) : Reflects state := by
  refine ⟨fun deviceId heard hforeign hheard hlately => ?_, fun info hinfo => ?_,
    fun info hinfo => ?_⟩
  · obtain ⟨info, hlookup⟩ := (hkept.present deviceId heard hforeign hheard).2 hlately
    obtain ⟨_, _, _, other, hother, _, htells⟩ := hkept.entry deviceId info hlookup
    rw [hheard] at hother
    cases hother
    exact ⟨info, filter_getPeers (fun deviceId info hentry => (hkept.entry deviceId info hentry).1)
      hlookup, htells (by omega)⟩
  · obtain ⟨deviceId, hlookup⟩ := mem_getPeers.mp hinfo
    obtain ⟨hkey, hforeign, _⟩ := hkept.entry deviceId info hlookup
    rw [hkey]
    exact hforeign
  · obtain ⟨deviceId, hlookup⟩ := mem_getPeers.mp hinfo
    obtain ⟨hkey, _, hdue, heard, hheard, htime, _⟩ := hkept.entry deviceId info hlookup
    have hnow := hkept.now_le
    refine ⟨heard, by rw [hkey, hheard], ?_⟩
    omega

/-! ## One event -/

/-- What the receiver does with a beacon of another device. -/
theorem receive_foreign {manager : DiscoveryManager} {datagram : Option DiscoveryBeacon}
    {beacon : DiscoveryBeacon} {address : Bytes} {now : Nat} (hrecv : recvBeacon datagram = .ok beacon)
    (hforeign : beacon.deviceId ≠ manager.deviceId) :
    ∃ info, manager.receive datagram address now =
        { manager with peers := manager.peers.insert beacon.deviceId info } ∧ info.lastSeen = now ∧
      (∀ existing, manager.peers.lookup beacon.deviceId = some existing →
        info = existing.updateLastSeen now) ∧
      (manager.peers.lookup beacon.deviceId = none → info = PeerInfo.from beacon address now) := by
  rw [DiscoveryManager.receive, hrecv]
  dsimp only
  rw [if_neg hforeign]
  cases hlookup : manager.peers.lookup beacon.deviceId with
  | some existing =>
      refine ⟨existing.updateLastSeen now, rfl, rfl, fun other hother => ?_, fun hnone => ?_⟩
      · rw [Option.some.inj hother]
      · cases hnone
  | none =>
      refine ⟨PeerInfo.from beacon address now, rfl, rfl, fun other hother => ?_, fun _ => rfl⟩
      cases hother

/-- A beacon that is stored as it was heard. -/
theorem Kept.hear (hkept : Kept state) {beacon : DiscoveryBeacon} {address : Bytes}
    (hforeign : beacon.deviceId ≠ state.manager.deviceId) (hkey : info.deviceId = beacon.deviceId)
    (hseen : info.lastSeen = state.now)
    (htells : 0 < state.manager.peerTtl → Tells info beacon address) :
    Kept { state with
      manager := { state.manager with peers := state.manager.peers.insert beacon.deviceId info }
      heard := Function.update state.heard beacon.deviceId (some ⟨beacon, address, state.now⟩) } := by
  have hdue := hkept.due_le
  refine ⟨fun deviceId other hlookup => ?_, fun deviceId heard hother hheard => ?_, hkept.now_le,
    hkept.due_le⟩
  · dsimp only at hlookup ⊢
    rw [lookup_insert_ite] at hlookup
    by_cases hsame : deviceId = beacon.deviceId
    · rw [if_pos hsame] at hlookup
      cases hlookup
      subst hsame
      exact ⟨hkey, hforeign, by omega, _, Function.update_self .., hseen.symm, htells⟩
    · rw [if_neg hsame] at hlookup
      rw [Function.update_of_ne hsame]
      exact hkept.entry deviceId other hlookup
  · dsimp only at hother hheard ⊢
    rw [lookup_insert_ite]
    by_cases hsame : deviceId = beacon.deviceId
    · subst hsame
      rw [Function.update_self] at hheard
      cases hheard
      exact ⟨Nat.le_refl _, fun _ => ⟨info, if_pos rfl⟩⟩
    · rw [Function.update_of_ne hsame] at hheard
      rw [if_neg hsame]
      exact hkept.present deviceId heard hother hheard

theorem Kept.received (hkept : Kept state) {datagram : Option DiscoveryBeacon} {address : Bytes}
    (hrepeats : Repeats state (.received datagram address)) :
    Kept { state with
      manager := state.manager.receive datagram address state.now
      heard := state.hear datagram address } := by
  cases hrecv : recvBeacon datagram with
  | error error =>
      have hmanager : state.manager.receive datagram address state.now = state.manager := by
        rw [DiscoveryManager.receive, hrecv]
      have hheard : state.hear datagram address = state.heard := by
        rw [State.hear, hrecv]
      rw [hmanager, hheard]
      exact hkept
  | ok beacon =>
      have hheard : state.hear datagram address =
          Function.update state.heard beacon.deviceId (some ⟨beacon, address, state.now⟩) := by
        rw [State.hear, hrecv]
      rw [hheard]
      by_cases hforeign : beacon.deviceId = state.manager.deviceId
      · have hmanager : state.manager.receive datagram address state.now = state.manager := by
          rw [DiscoveryManager.receive, hrecv]
          exact if_pos hforeign
        rw [hmanager]
        refine ⟨fun deviceId info hlookup => ?_, fun deviceId heard hother hsome => ?_, hkept.now_le,
          hkept.due_le⟩
        · obtain ⟨hkey, hother, hrest⟩ := hkept.entry deviceId info hlookup
          dsimp only
          rw [Function.update_of_ne (hforeign ▸ hother)]
          exact ⟨hkey, hother, hrest⟩
        · dsimp only at hother hsome
          rw [Function.update_of_ne (hforeign ▸ hother)] at hsome
          exact hkept.present deviceId heard hother hsome
      · obtain ⟨info, hmanager, hseen, hknown, hnew⟩ :=
          @receive_foreign state.manager datagram beacon address state.now hrecv hforeign
        rw [hmanager]
        cases hlookup : state.manager.peers.lookup beacon.deviceId with
        | some existing =>
            obtain rfl := hknown existing hlookup
            have hkey := (hkept.entry beacon.deviceId existing hlookup).1
            refine hkept.hear hforeign hkey hseen fun hpos => ?_
            obtain ⟨haddress, hport, hname, hfp⟩ :=
              hrepeats datagram address beacon existing rfl hrecv hforeign hpos hlookup
            exact ⟨haddress, hport, hname, hfp⟩
        | none =>
            obtain rfl := hnew hlookup
            exact hkept.hear hforeign rfl hseen fun _ => ⟨rfl, rfl, rfl, rfl⟩

/-- A cleanup keeps what was heard within the time to live. -/
theorem Kept.cleanup (hkept : Kept state) :
    Kept { state with
      manager := state.manager.cleanup state.now
      due := state.now + cleanupInterval } := by
  have hlookup : ∀ deviceId, (state.manager.cleanup state.now).peers.lookup deviceId =
      (state.manager.peers.lookup deviceId).filter fun peer =>
        peer.isAlive state.now state.manager.peerTtl :=
    fun deviceId => lookup_retain _ state.manager.peers deviceId
  refine ⟨fun deviceId info hinfo => ?_, fun deviceId heard hother hheard => ?_,
    Nat.le_add_right _ _, Nat.le_refl _⟩
  · dsimp only at hinfo ⊢
    rw [hlookup, Option.filter_eq_some_iff] at hinfo
    obtain ⟨hinfo, halive⟩ := hinfo
    obtain ⟨hkey, hforeign, _, hheard⟩ := hkept.entry deviceId info hinfo
    have hyoung := of_decide_eq_true (Bool.and_eq_true_iff.mp halive).2
    exact ⟨hkey, hforeign, by dsimp only [DiscoveryManager.cleanup]; omega, hheard⟩
  · obtain ⟨htime, hpresent⟩ := hkept.present deviceId heard hother hheard
    refine ⟨htime, fun hlately => ?_⟩
    obtain ⟨info, hinfo⟩ := hpresent hlately
    obtain ⟨_, _, _, other, hsome, hseen, _⟩ := hkept.entry deviceId info hinfo
    dsimp only at hheard hlately ⊢
    rw [hheard] at hsome
    cases hsome
    refine ⟨info, ?_⟩
    rw [hlookup, Option.filter_eq_some_iff]
    refine ⟨hinfo, Bool.and_eq_true_iff.mpr ⟨decide_eq_true (by omega), decide_eq_true ?_⟩⟩
    rw [← hseen]
    exact hlately

theorem Kept.elapse (hkept : Kept state) {duration : Nat} (hdue : state.now + duration ≤ state.due) :
    Kept { state with now := state.now + duration } := by
  have hle := hkept.due_le
  refine ⟨hkept.entry, fun deviceId heard hother hheard => ?_, hdue, by dsimp only; omega⟩
  obtain ⟨htime, hpresent⟩ := hkept.present deviceId heard hother hheard
  exact ⟨Nat.le_trans htime (Nat.le_add_right _ _), fun hlately =>
    hpresent (Nat.lt_of_le_of_lt (Nat.sub_le_sub_right (Nat.le_add_right _ _) _) hlately)⟩

theorem step_elapse {duration : Nat} (hdue : state.now + duration ≤ state.due) :
    step state (.elapse duration) = some { state with now := state.now + duration } := if_pos hdue

theorem Kept.step (hkept : Kept state) (hrepeats : Repeats state event)
    (hstep : step state event = some next) : Kept next := by
  cases event with
  | received datagram address =>
      cases hstep
      exact hkept.received hrepeats
  | cleanup =>
      cases hstep
      exact hkept.cleanup
  | elapse duration =>
      obtain ⟨hdue, hnext⟩ := Option.ite_none_right_eq_some.mp hstep
      cases hnext
      exact hkept.elapse hdue

/-- An event leaves the table as it is to be exactly when a beacon with an entry repeats it. -/
theorem reflects_step_iff (hkept : Kept state) :
    (∀ next, step state event = some next → Reflects next) ↔ Repeats state event := by
  constructor
  · rintro hreflects datagram address beacon existing rfl hrecv hforeign hpos hlookup
    have hnext := hreflects _ rfl
    obtain ⟨info, hmanager, hseen, hknown, _⟩ :=
      @receive_foreign state.manager datagram beacon address state.now hrecv hforeign
    obtain rfl := hknown existing hlookup
    have hheard : state.hear datagram address beacon.deviceId = some ⟨beacon, address, state.now⟩ := by
      rw [State.hear, hrecv]
      exact Function.update_self ..
    have hid : (state.manager.receive datagram address state.now).deviceId = state.manager.deviceId := by
      rw [hmanager]
    have httl : (state.manager.receive datagram address state.now).peerTtl = state.manager.peerTtl := by
      rw [hmanager]
    obtain ⟨info, hinfo, htells⟩ := hnext.latest beacon.deviceId _ (by rw [hid]; exact hforeign) hheard
      (by dsimp only; rw [httl, Nat.sub_self]; exact hpos)
    have hmem : existing.updateLastSeen state.now ∈ [info] := by
      rw [← hinfo, List.mem_filter]
      refine ⟨mem_getPeers.mpr ⟨beacon.deviceId, ?_⟩, decide_eq_true ?_⟩
      · dsimp only
        rw [hmanager, lookup_insert_ite, if_pos rfl]
      · exact (hkept.entry beacon.deviceId existing hlookup).1
    rw [← List.mem_singleton.mp hmem] at htells
    exact ⟨htells.address, htells.port, htells.deviceName, htells.certFingerprint⟩
  · exact fun hrepeats next hstep => (hkept.step hrepeats hstep).reflects

/-! ## Any events -/

theorem kept_start (deviceId : Uuid) (peerTtl : Nat) : Kept (start deviceId peerTtl) := by
  refine ⟨fun deviceId info hlookup => ?_, fun deviceId heard _ hheard => ?_, Nat.le_refl _,
    Nat.zero_le _⟩
  · cases hlookup
  · cases hheard

/-- At every moment the table reflects the last beacons exactly when every beacon that meets
an entry repeats it. -/
theorem reflects_along_iff (deviceId : Uuid) (peerTtl : Nat) (events : List Event) :
    Along step (fun state event => ∀ next, step state event = some next → Reflects next)
        (start deviceId peerTtl) events ↔
      Along step Repeats (start deviceId peerTtl) events :=
  along_congr Kept (fun _ _ hkept => reflects_step_iff hkept)
    (fun _ _ _ hkept hrepeats hstep => hkept.step hrepeats hstep) (kept_start deviceId peerTtl)

/-- A beacon of device 1 with the fingerprint and the port given. -/
def beaconOf (port : Nat) (byte : UInt8) : DiscoveryBeacon where
  version := protocolVersion
  deviceId := FixedBytes.filled 16 1
  deviceName := [97]
  port := port
  certFingerprint := FixedBytes.filled 32 byte

/-- Two seconds later the device is heard again, from another address and with another port
and another certificate. -/
def moved : List Event :=
  [.cleanup, .received (some (beaconOf 7000 2)) [10, 0, 0, 1], .elapse 2000000000,
    .received (some (beaconOf 7001 3)) [10, 0, 0, 2]]

theorem keeps_first_beacon :
    ¬Along step (fun state event => ∀ next, step state event = some next → Reflects next)
      (start (FixedBytes.filled 16 0) (10 * 1000000000)) moved := by
  intro halong
  have hreflects := (((halong.2 _ rfl).2 _ rfl).2 _ (step_elapse (by decide))).1 _ rfl
  obtain ⟨info, hinfo, htells⟩ := hreflects.latest (FixedBytes.filled 16 1)
    ⟨beaconOf 7001 3, [10, 0, 0, 2], 2000000000⟩ (by decide) rfl (by decide)
  have hfirst : PeerInfo.from (beaconOf 7000 2) [10, 0, 0, 1] 2000000000 = info := by
    refine List.singleton_inj.mp (Eq.trans ?_ hinfo)
    decide
  rw [← hfirst] at htells
  exact absurd htells.address (by decide)

end P2PFileTransfer.Session.PeerTable
