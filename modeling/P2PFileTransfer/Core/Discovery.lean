import P2PFileTransfer.Core.Protocol
import P2PFileTransfer.Foundation.Tables

/-!
# Peer discovery

One task receives beacons and another one drops the peers that were silent for too long.
An entry that exists is only given a new time.  Times are in nanoseconds.
-/

namespace P2PFileTransfer.Core.Discovery

open P2PFileTransfer.Foundation.ByteFile
open P2PFileTransfer.Foundation.Tables
open P2PFileTransfer.Foundation.UnixPath
open P2PFileTransfer.Core.Protocol

structure PeerInfo where
  deviceId : Uuid
  deviceName : OsStr
  address : Bytes
  port : Nat
  certFingerprint : Fingerprint
  lastSeen : Nat
  deriving DecidableEq

/-- A time in the future counts as dead. -/
def PeerInfo.isAlive (peer : PeerInfo) (now ttl : Nat) : Bool :=
  decide (peer.lastSeen ≤ now) && decide (now - peer.lastSeen < ttl)

def PeerInfo.updateLastSeen (peer : PeerInfo) (now : Nat) : PeerInfo :=
  { peer with lastSeen := now }

def PeerInfo.from (beacon : DiscoveryBeacon) (address : Bytes) (now : Nat) : PeerInfo where
  deviceId := beacon.deviceId
  deviceName := beacon.deviceName
  address := address
  port := beacon.port
  certFingerprint := beacon.certFingerprint
  lastSeen := now

/-- A datagram that is no beacon has no value. -/
def recvBeacon (datagram : Option DiscoveryBeacon) : Except Error DiscoveryBeacon :=
  match datagram with
  | none => .error (.protocol [.text "Invalid beacon: "])
  | some beacon =>
      if beacon.version ≠ protocolVersion then .error (.versionMismatch beacon.version protocolVersion)
      else .ok beacon

structure DiscoveryManager where
  deviceId : Uuid
  peers : Table Uuid PeerInfo
  peerTtl : Nat

/-- One turn of the receiver. -/
def DiscoveryManager.receive (manager : DiscoveryManager) (datagram : Option DiscoveryBeacon)
    (address : Bytes) (now : Nat) : DiscoveryManager :=
  match recvBeacon datagram with
  | .error _ => manager
  | .ok beacon =>
      if beacon.deviceId = manager.deviceId then manager
      else
        match manager.peers.lookup beacon.deviceId with
        | some existing =>
            { manager with
              peers := manager.peers.insert beacon.deviceId (existing.updateLastSeen now) }
        | none =>
            { manager with
              peers := manager.peers.insert beacon.deviceId (PeerInfo.from beacon address now) }

/-- One turn of the cleanup task. -/
def DiscoveryManager.cleanup (manager : DiscoveryManager) (now : Nat) : DiscoveryManager :=
  { manager with peers := retain (fun _ peer => peer.isAlive now manager.peerTtl) manager.peers }

def cleanupInterval : Nat := 5 * 1000000000

def DiscoveryManager.getPeers (manager : DiscoveryManager) : List PeerInfo :=
  manager.peers.entries.map fun entry => entry.2

end P2PFileTransfer.Core.Discovery
