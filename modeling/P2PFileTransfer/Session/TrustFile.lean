import Mathlib.Logic.Equiv.List
import P2PFileTransfer.Core.PeerFile
import P2PFileTransfer.Foundation.Run

/-!
# The store in memory and the store on disk

The state is changed before the flush and stays changed when the flush fails.  Memory and
disk go on saying the same only if the call would have changed nothing.
-/

namespace P2PFileTransfer.Session.TrustFile

open P2PFileTransfer.Foundation.ByteFile
open P2PFileTransfer.Foundation.Hex
open P2PFileTransfer.Foundation.Run
open P2PFileTransfer.Foundation.Tables
open P2PFileTransfer.Foundation.UnixPath
open P2PFileTransfer.Core.Protocol
open P2PFileTransfer.Core.PeerStore (PeerRecord Peers refreshed encode_eq_iff)
open P2PFileTransfer.Core.PeerFile

inductive Call where
  | trust (fp : Fingerprint) (displayName : OsStr) (now : Nat) (failure : Option Failure)
  | verifyOrPin (claimedFp presentedFp : Fingerprint) (displayName : OsStr) (now : Nat)
      (failure : Option Failure)
  | forget (fp : Fingerprint) (failure : Option Failure)

def Store.perform (json : Json) (store : Store) : Call → Store × Except Error Unit
  | .trust fp displayName now failure => store.trust json fp displayName now failure
  | .verifyOrPin claimedFp presentedFp displayName now failure =>
      store.verifyOrPin json claimedFp presentedFp displayName now failure
  | .forget fp failure => store.forget json fp failure

def step (json : Json) (store : Store) (call : Call) : Option Store :=
  some (Store.perform json store call).1

/-- A store opened now would have the entries of the one in memory. -/
def InSync (json : Json) (store : Store) : Prop :=
  ∃ peers, loaded json store.disk = .ok peers ∧ ∀ key, peers.lookup key = store.state.lookup key

/-- What a call is to leave: memory and disk in agreement, and after an error both as they
were. -/
structure Kept (json : Json) (store : Store) (outcome : Store × Except Error Unit) : Prop where
  inSync : InSync json outcome.1
  unchanged : ∀ error, outcome.2 = .error error →
    (∀ key, outcome.1.state.lookup key = store.state.lookup key) ∧
      loaded json outcome.1.disk = loaded json store.disk

def Consistent (json : Json) (store : Store) (call : Call) : Prop :=
  Kept json store (Store.perform json store call)

/-- The flush succeeds, or there is none, or the call would leave every entry as it is. -/
def Harmless (store : Store) : Call → Prop
  | .trust fp displayName now failure =>
      failure = none ∨ store.get fp = some (refreshed (store.get fp) displayName now)
  | .verifyOrPin claimedFp presentedFp displayName now failure =>
      claimedFp ≠ presentedFp ∨ failure = none ∨
        store.get claimedFp = some (refreshed (store.get claimedFp) displayName now)
  | .forget fp failure => failure = none ∨ store.get fp = none

variable {json : Json} {store : Store} {state : Peers} {failure : Option Failure} {call : Call}
  {fp : Fingerprint} {displayName : OsStr} {now : Nat}

/-! ## One call -/

theorem kept_changed_iff (hsync : InSync json store) :
    Kept json store (store.changed json state failure) ↔
      failure = none ∨ ∀ key, state.lookup key = store.state.lookup key := by
  cases failure with
  | none =>
      refine iff_of_true ⟨loaded_written json state none, fun error herror => ?_⟩ (Or.inl rfl)
      cases herror
  | some failure =>
      obtain ⟨hpath, _⟩ := flush_some json store.disk state failure
      have hloaded := @loaded_of_path json _ _ hpath
      obtain ⟨peers, hpeers, hlookup⟩ := hsync
      constructor
      · rintro ⟨⟨other, hother, hsame⟩, _⟩
        rw [Store.changed] at hother
        dsimp only at hother
        rw [hloaded, hpeers] at hother
        cases hother
        exact Or.inr fun key => (hsame key).symm.trans (hlookup key)
      · rintro (hnone | hsame)
        · cases hnone
        · exact ⟨⟨peers, hloaded.trans hpeers, fun key => (hlookup key).trans (hsame key).symm⟩,
            fun _ _ => ⟨hsame, hloaded⟩⟩

theorem lookup_insert_same_iff (key : List Char) (record : PeerRecord) :
    (∀ other, (state.insert key record).lookup other = state.lookup other) ↔
      state.lookup key = some record := by
  constructor
  · intro hsame
    rw [← hsame key, lookup_insert_ite, if_pos rfl]
  · intro hknown other
    rw [lookup_insert_ite]
    split
    · rename_i heq
      rw [heq, hknown]
    · rfl

theorem lookup_erase_same_iff (key : List Char) :
    (∀ other, (state.erase key).lookup other = state.lookup other) ↔ state.lookup key = none := by
  constructor
  · intro hsame
    rw [← hsame key, lookup_erase_ite, if_pos rfl]
  · intro hunknown other
    rw [lookup_erase_ite]
    split
    · rename_i heq
      rw [heq, hunknown]
    · rfl

theorem kept_trust_iff (hsync : InSync json store) :
    Kept json store (store.trust json fp displayName now failure) ↔
      failure = none ∨ store.get fp = some (refreshed (store.get fp) displayName now) := by
  rw [Store.trust, kept_changed_iff hsync, lookup_insert_same_iff]
  rfl

theorem consistent_iff (hsync : InSync json store) :
    Consistent json store call ↔ Harmless store call := by
  rw [Consistent]
  cases call with
  | trust fp displayName now failure => exact kept_trust_iff hsync
  | verifyOrPin claimedFp presentedFp displayName now failure =>
      rw [Store.perform]
      by_cases hsame : claimedFp = presentedFp
      · subst hsame
        rw [verifyOrPin_self, kept_trust_iff hsync]
        exact (or_iff_right fun hne => hne rfl).symm
      · rw [verifyOrPin_mismatch hsame]
        exact iff_of_true ⟨hsync, fun _ _ => ⟨fun _ => rfl, rfl⟩⟩ (Or.inl hsame)
  | forget fp failure =>
      rw [Store.perform, Store.forget, kept_changed_iff hsync, lookup_erase_same_iff]
      rfl

/-! ## Any calls -/

/-- Memory and disk say the same after every call exactly when each call is harmless. -/
theorem consistent_along_iff (hsync : InSync json store) (calls : List Call) :
    Along (step json) (Consistent json) store calls ↔
      Along (step json) Harmless store calls := by
  refine along_congr (InSync json) (fun store call hsync => consistent_iff hsync) ?_ hsync
  intro store call next hsync hharmless hstep
  cases hstep
  exact ((consistent_iff hsync).mpr hharmless).inSync

/-! ## A text for every store -/

/-- The text of the empty store. -/
def emptyText : Bytes :=
  [123, 10, 32, 32, 34, 112, 101, 101, 114, 115, 34, 58, 32, 123, 125, 10, 125]

abbrev PlainEntry := List Nat × List Nat × Nat × Nat

def plainEntry (entry : Sigma fun _ : List Char => PeerRecord) : PlainEntry :=
  (entry.1.map Char.toNat, entry.2.displayName.map UInt8.toNat, entry.2.firstSeen,
    entry.2.lastSeen)

def PlainEntry.entry (plain : PlainEntry) : Sigma fun _ : List Char => PeerRecord :=
  ⟨plain.1.map Char.ofNat, plain.2.1.map UInt8.ofNat, plain.2.2.1, plain.2.2.2⟩

theorem entry_plainEntry (entry : Sigma fun _ : List Char => PeerRecord) :
    (plainEntry entry).entry = entry := by
  obtain ⟨key, displayName, firstSeen, lastSeen⟩ := entry
  simp [plainEntry, PlainEntry.entry, Function.comp_def]

/-- The JSON text of the empty store, and a number in unary for any other. -/
def plainJson : Json where
  toVecPretty := fun peers =>
    if peers.entries = [] then emptyText
    else List.replicate (Encodable.encode (peers.entries.map plainEntry)) 0
  fromSlice := fun bytes =>
    if bytes = emptyText then some ∅
    else (Encodable.decode (α := List PlainEntry) bytes.length).map fun plain =>
      (plain.map PlainEntry.entry).toAList
  lookup_fromSlice := by
    intro peers
    by_cases hempty : peers.entries = []
    · refine ⟨∅, ?_, fun key => ?_⟩
      · rw [if_pos hempty, if_pos rfl]
      · rw [AList.lookup_empty, AList.lookup, hempty]
        rfl
    · have hne : List.replicate (Encodable.encode (peers.entries.map plainEntry)) 0 ≠ emptyText := by
        intro hsame
        have hbrace : (123 : UInt8) ∈ emptyText := List.mem_cons_self
        rw [← hsame] at hbrace
        exact absurd (List.eq_of_mem_replicate hbrace) (by decide)
      refine ⟨peers.entries.toAList, ?_, fun key => ?_⟩
      · have hentries : PlainEntry.entry ∘ plainEntry = id := funext entry_plainEntry
        rw [if_neg hempty, if_neg hne, List.length_replicate, Encodable.encodek, Option.map_some,
          List.map_map, hentries, List.map_id]
      · rw [AList.lookup_to_alist]
        rfl

def opened : Store := ⟨∅, ⟨none, none⟩⟩

theorem inSync_opened : InSync plainJson opened := ⟨∅, rfl, fun _ => rfl⟩

def pinned : Fingerprint := FixedBytes.filled 32 1

/-- A peer that is not known is forgotten, first with a flush and then without. -/
def forgotten : List Call := [.forget pinned none, .forget pinned (some ⟨.syncAll, []⟩)]

theorem consistent_along_iff_forgotten :
    Along (step plainJson) (Consistent plainJson) opened forgotten := by
  refine (consistent_along_iff inSync_opened forgotten).mpr ⟨Or.inl rfl, fun next hstep => ?_⟩
  cases hstep
  exact ⟨Or.inr rfl, fun _ _ => trivial⟩

/-- A peer is pinned, and the text is not written. -/
def unwritten : List Call := [.trust pinned [97] 5 (some ⟨.openTmp, []⟩)]

/-- A pinned peer is forgotten, and the text is not put in its place. -/
def unplaced : List Call := [.trust pinned [97] 5 none, .forget pinned (some ⟨.rename, []⟩)]

theorem diverges :
    ¬Along (step plainJson) (Consistent plainJson) opened unwritten ∧
      ¬Along (step plainJson) (Consistent plainJson) opened unplaced := by
  constructor <;> intro hconsistent
  · obtain ⟨hlookup, _⟩ := hconsistent.1.unchanged _ rfl
    have hpinned := hlookup (encode pinned.val)
    revert hpinned
    decide
  · obtain ⟨hlookup, _⟩ := (hconsistent.2 _ rfl).1.unchanged _ rfl
    have hpinned := hlookup (encode pinned.val)
    revert hpinned
    decide

end P2PFileTransfer.Session.TrustFile
