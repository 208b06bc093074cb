import P2PFileTransfer.Core.PeerStore

/-!
# The file of known peers

A flush goes through several file operations, each of which may fail; the text gets its
place by the last one.  The store in memory has been changed before the first.
-/

namespace P2PFileTransfer.Core.PeerFile

open P2PFileTransfer.Foundation.ByteFile
open P2PFileTransfer.Foundation.Hex
open P2PFileTransfer.Foundation.Tables
open P2PFileTransfer.Foundation.UnixPath
open P2PFileTransfer.Core.Protocol
open P2PFileTransfer.Core.PeerStore

/-- The JSON of a store; what is read from it has the entries it was made of. -/
structure Json where
  toVecPretty : Peers → Bytes
  fromSlice : Bytes → Option Peers
  lookup_fromSlice : ∀ peers, ∃ read, fromSlice (toVecPretty peers) = some read ∧
    ∀ key, read.lookup key = peers.lookup key

/-- What `path` and its sibling `*.tmp` hold. -/
structure Disk where
  path : Option Bytes
  tmp : Option Bytes
  deriving DecidableEq, Repr

/-- The file operation that fails; of a write some bytes may be done. -/
inductive FailedAt where
  | createDirAll
  | openTmp
  | writeAll (written : Nat)
  | syncAll
  | rename
  deriving DecidableEq, Repr

structure Failure where
  failedAt : FailedAt
  detail : Text
  deriving DecidableEq, Repr

def flush (json : Json) (disk : Disk) (store : Peers) (failure : Option Failure) :
    Disk × Except Error Unit :=
  let bytes := json.toVecPretty store
  match failure with
  | none => (⟨some bytes, none⟩, .ok ())
  | some ⟨failedAt, detail⟩ =>
      let disk := match failedAt with
        | .createDirAll | .openTmp => disk
        | .writeAll written => { disk with tmp := some (bytes.take written) }
        | .syncAll | .rename => { disk with tmp := some bytes }
      (disk, .error (.network detail))

/-- The peers `KnownPeers::open` takes from the disk. -/
def loaded (json : Json) (disk : Disk) : Except Error Peers :=
  match disk.path with
  | none => .ok ∅
  | some bytes =>
      match json.fromSlice bytes with
      | none => .error (.other [.text "known_peers.json parse: "])
      | some peers => .ok peers

structure Store where
  state : Peers
  disk : Disk

def Store.get (store : Store) (fp : Fingerprint) : Option PeerRecord :=
  store.state.lookup (encode fp.val)

/-- The state is changed first, then it is flushed. -/
def Store.changed (json : Json) (store : Store) (state : Peers) (failure : Option Failure) :
    Store × Except Error Unit :=
  let flushed := flush json store.disk state failure
  (⟨state, flushed.1⟩, flushed.2)

def Store.trust (json : Json) (store : Store) (fp : Fingerprint) (displayName : OsStr) (now : Nat)
    (failure : Option Failure) : Store × Except Error Unit :=
  store.changed json
    (store.state.insert (encode fp.val) (refreshed (store.get fp) displayName now)) failure

def Store.verifyOrPin (json : Json) (store : Store) (claimedFp presentedFp : Fingerprint)
    (displayName : OsStr) (now : Nat) (failure : Option Failure) : Store × Except Error Unit :=
  if claimedFp ≠ presentedFp then (store, .error .fingerprintMismatch)
  else
    match store.get claimedFp with
    | none => store.trust json claimedFp displayName now failure
    | some _ => store.trust json claimedFp displayName now failure

def Store.forget (json : Json) (store : Store) (fp : Fingerprint) (failure : Option Failure) :
    Store × Except Error Unit :=
  store.changed json (store.state.erase (encode fp.val)) failure

variable {json : Json} {disk : Disk} {peers state : Peers} {store : Store} {failure : Option Failure}

theorem flush_none (json : Json) (disk : Disk) (peers : Peers) :
    flush json disk peers none = (⟨some (json.toVecPretty peers), none⟩, .ok ()) := rfl

/-- A flush that fails leaves what `path` holds. -/
theorem flush_some (json : Json) (disk : Disk) (peers : Peers) (failure : Failure) :
    (flush json disk peers (some failure)).1.path = disk.path ∧
      (flush json disk peers (some failure)).2 = .error (.network failure.detail) := by
  obtain ⟨failedAt, detail⟩ := failure
  cases failedAt <;> exact ⟨rfl, rfl⟩

/-- What is flushed is loaded again. -/
theorem loaded_written (json : Json) (peers : Peers) (tmp : Option Bytes) :
    ∃ read, loaded json ⟨some (json.toVecPretty peers), tmp⟩ = .ok read ∧
      ∀ key, read.lookup key = peers.lookup key := by
  obtain ⟨read, hread, hlookup⟩ := json.lookup_fromSlice peers
  refine ⟨read, ?_, hlookup⟩
  rw [loaded]
  dsimp only
  rw [hread]

theorem loaded_of_path {other : Disk} (hpath : other.path = disk.path) :
    loaded json other = loaded json disk := by
  rw [loaded, loaded, hpath]

/-- Known or not, a peer that presents what it claims is pinned. -/
theorem verifyOrPin_self {fp : Fingerprint} {displayName : OsStr} {now : Nat} :
    store.verifyOrPin json fp fp displayName now failure =
      store.trust json fp displayName now failure := by
  rw [Store.verifyOrPin, if_neg (not_not.mpr rfl)]
  cases store.get fp <;> rfl

theorem verifyOrPin_mismatch {claimedFp presentedFp : Fingerprint} {displayName : OsStr}
    {now : Nat} (hne : claimedFp ≠ presentedFp) :
    store.verifyOrPin json claimedFp presentedFp displayName now failure =
      (store, .error .fingerprintMismatch) := if_pos hne

/-! ## The store without its file operations -/

/-- The file as the next start finds it. -/
def Disk.toFile (json : Json) (disk : Disk) : PeersFile :=
  match disk.path with
  | none => .absent
  | some bytes =>
      match json.fromSlice bytes with
      | none => .unparsable
      | some peers => .holds peers

/-- The same state in memory, and the same answers after the next start. -/
structure Refines (json : Json) (store : Store) (known : KnownPeers) : Prop where
  state : store.state = known.state
  file : ∀ fp, (store.disk.toFile json).get fp = known.file.get fp

theorem Refines.changed {known : KnownPeers} (hrefines : Refines json store known) (state : Peers)
    (failure : Option Failure) :
    Refines json (store.changed json state failure).1
        (PeerStore.flush known.file state (failure.map Failure.detail)) ∧
      (store.changed json state failure).2 = ioResult (failure.map Failure.detail) := by
  cases failure with
  | none =>
      refine ⟨⟨rfl, fun fp => ?_⟩, rfl⟩
      obtain ⟨read, hread, hlookup⟩ := json.lookup_fromSlice state
      simp only [Store.changed, flush_none, Disk.toFile, hread]
      exact hlookup _
  | some failure =>
      obtain ⟨hpath, hresult⟩ := flush_some json store.disk state failure
      have hfile : (store.changed json state (some failure)).1.disk.toFile json =
          store.disk.toFile json := by
        rw [Disk.toFile, Disk.toFile, Store.changed]
        dsimp only
        rw [hpath]
      exact ⟨⟨rfl, fun fp => hfile ▸ hrefines.file fp⟩, hresult⟩

/-- The file operations carry out what the operations without them say. -/
theorem Refines.trust {known : KnownPeers} (hrefines : Refines json store known) (fp : Fingerprint)
    (displayName : OsStr) (now : Nat) (failure : Option Failure) :
    Refines json (store.trust json fp displayName now failure).1
        (known.trust fp displayName now (failure.map Failure.detail)).1 ∧
      (store.trust json fp displayName now failure).2 =
        (known.trust fp displayName now (failure.map Failure.detail)).2 := by
  rw [Store.trust, Store.get, hrefines.state]
  exact hrefines.changed _ failure

theorem Refines.forget {known : KnownPeers} (hrefines : Refines json store known) (fp : Fingerprint)
    (failure : Option Failure) :
    Refines json (store.forget json fp failure).1
        (known.forget fp (failure.map Failure.detail)).1 ∧
      (store.forget json fp failure).2 = (known.forget fp (failure.map Failure.detail)).2 := by
  rw [Store.forget, hrefines.state]
  exact hrefines.changed _ failure

theorem Refines.verifyOrPin {known : KnownPeers} (hrefines : Refines json store known)
    (claimedFp presentedFp : Fingerprint) (displayName : OsStr) (now : Nat)
    (failure : Option Failure) :
    Refines json (store.verifyOrPin json claimedFp presentedFp displayName now failure).1
        (known.verifyOrPin claimedFp presentedFp displayName now (failure.map Failure.detail)).1 ∧
      (store.verifyOrPin json claimedFp presentedFp displayName now failure).2 =
        (known.verifyOrPin claimedFp presentedFp displayName now
          (failure.map Failure.detail)).2 := by
  by_cases hsame : claimedFp = presentedFp
  · subst hsame
    rw [verifyOrPin_self, PeerStore.verifyOrPin_self]
    exact hrefines.trust claimedFp displayName now failure
  · rw [verifyOrPin_mismatch hsame, PeerStore.verifyOrPin_mismatch hsame]
    exact ⟨hrefines, rfl⟩

end P2PFileTransfer.Core.PeerFile
