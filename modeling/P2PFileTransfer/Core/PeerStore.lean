import P2PFileTransfer.Core.Protocol
import P2PFileTransfer.Foundation.Hex
import P2PFileTransfer.Foundation.Tables

/-!
# The store of known peers

The file is replaced by a rename, so it always holds a complete text; a text of another
origin may not parse.  Every operation that writes it may fail, and has then changed only
the store in memory.
-/

namespace P2PFileTransfer.Core.PeerStore

open P2PFileTransfer.Foundation.Hex
open P2PFileTransfer.Foundation.Tables
open P2PFileTransfer.Foundation.UnixPath
open P2PFileTransfer.Core.Protocol

structure PeerRecord where
  displayName : OsStr
  firstSeen : Nat
  lastSeen : Nat
  deriving DecidableEq, Repr

/-- The peers by the hex form of their fingerprints. -/
abbrev Peers := Table (List Char) PeerRecord

inductive PeersFile where
  | absent
  | holds (peers : Peers)
  | unparsable

def PeersFile.get (file : PeersFile) (fp : Fingerprint) : Option PeerRecord :=
  match file with
  | .holds peers => peers.lookup (encode fp.val)
  | .absent | .unparsable => none

/-- `state` is the store in memory, `file` what `path` holds. -/
structure KnownPeers where
  state : Peers
  file : PeersFile

/-- The result of a file operation; a failure carries its text. -/
def ioResult : Option Text → Except Error Unit
  | none => .ok ()
  | some detail => .error (.network detail)

/-- `KnownPeers::open`. -/
def openAt (file : PeersFile) (failure : Option Text) : Except Error KnownPeers := do
  ioResult failure
  match file with
  | .absent => return ⟨∅, file⟩
  | .holds peers => return ⟨peers, file⟩
  | .unparsable => throw (.other [.text "known_peers.json parse: "])

def flush (file : PeersFile) (peers : Peers) (failure : Option Text) : KnownPeers :=
  match failure with
  | none => ⟨peers, .holds peers⟩
  | some _ => ⟨peers, file⟩

def KnownPeers.get (store : KnownPeers) (fp : Fingerprint) : Option PeerRecord :=
  store.state.lookup (encode fp.val)

/-- The entry of a peer after it was seen at `now`. -/
def refreshed (known : Option PeerRecord) (displayName : OsStr) (now : Nat) : PeerRecord :=
  let entry := known.getD ⟨displayName, now, now⟩
  { entry with
    lastSeen := now
    displayName := if displayName = [] then entry.displayName else displayName }

def KnownPeers.trust (store : KnownPeers) (fp : Fingerprint) (displayName : OsStr) (now : Nat)
    (failure : Option Text) : KnownPeers × Except Error Unit :=
  (flush store.file
    (store.state.insert (encode fp.val) (refreshed (store.get fp) displayName now)) failure,
    ioResult failure)

def KnownPeers.verifyOrPin (store : KnownPeers) (claimedFp presentedFp : Fingerprint)
    (displayName : OsStr) (now : Nat) (failure : Option Text) : KnownPeers × Except Error Unit :=
  if claimedFp ≠ presentedFp then (store, .error .fingerprintMismatch)
  else
    match store.get claimedFp with
    | none => store.trust claimedFp displayName now failure
    | some _ => store.trust claimedFp displayName now failure

def KnownPeers.forget (store : KnownPeers) (fp : Fingerprint) (failure : Option Text) :
    KnownPeers × Except Error Unit :=
  (flush store.file (store.state.erase (encode fp.val)) failure, ioResult failure)

/-! ## What the operations do -/

variable {store : KnownPeers} {fp other claimedFp presentedFp : Fingerprint}
  {displayName : OsStr} {now : Nat} {failure : Option Text}

theorem encode_eq_iff : encode other.val = encode fp.val ↔ other = fp :=
  ⟨fun hsame => Subtype.ext (encode_inj hsame), fun hsame => hsame ▸ rfl⟩

@[simp]
theorem state_flush (file : PeersFile) (peers : Peers) (failure : Option Text) :
    (flush file peers failure).state = peers := by
  cases failure <;> rfl

theorem verifyOrPin_mismatch (hne : claimedFp ≠ presentedFp) :
    store.verifyOrPin claimedFp presentedFp displayName now failure =
      (store, .error .fingerprintMismatch) := if_pos hne

theorem file_flush (file : PeersFile) (peers : Peers) (failure : Option Text) :
    (flush file peers failure).file =
      if failure = none then .holds (flush file peers failure).state else file := by
  cases failure <;> rfl

/-- What was opened is what the file holds. -/
theorem openAt_eq_ok {file : PeersFile} (hopen : openAt file failure = .ok store) :
    store.file = file ∧ ∀ fp, store.get fp = file.get fp := by
  cases failure with
  | some detail => cases hopen
  | none =>
      cases file with
      | absent =>
          cases hopen
          exact ⟨rfl, fun _ => AList.lookup_empty _⟩
      | holds peers =>
          cases hopen
          exact ⟨rfl, fun _ => rfl⟩
      | unparsable => cases hopen

/-- Known or not, a peer that presents what it claims is pinned. -/
theorem verifyOrPin_self :
    store.verifyOrPin fp fp displayName now failure = store.trust fp displayName now failure := by
  rw [KnownPeers.verifyOrPin, if_neg (not_not.mpr rfl)]
  cases store.get fp <;> rfl

theorem get_trust : (store.trust fp displayName now failure).1.get other =
    if other = fp then some (refreshed (store.get fp) displayName now) else store.get other := by
  simp only [KnownPeers.get, KnownPeers.trust, state_flush, lookup_insert_ite, encode_eq_iff]

theorem get_forget : (store.forget fp failure).1.get other =
    if other = fp then none else store.get other := by
  simp only [KnownPeers.get, KnownPeers.forget, state_flush, lookup_erase_ite, encode_eq_iff]

/-- A failed write is no mismatch. -/
theorem ioResult_ne_mismatch : ioResult failure ≠ .error .fingerprintMismatch := by
  cases failure with
  | none => exact fun heq => nomatch heq
  | some detail => exact fun heq => nomatch heq

end P2PFileTransfer.Core.PeerStore
