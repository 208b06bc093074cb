import P2PFileTransfer.Core.FileReceiver

/-!
# What one chunk stream can change

The index of a stream is checked against the number of chunks, the length of its
payload is not checked against the chunk size.  A stream therefore stays in its
slot exactly when it is refused, repeated, or carries at most one chunk of bytes.
-/

namespace P2PFileTransfer.Transfer.SlotConfinement

open P2PFileTransfer.Core
open P2PFileTransfer.Foundation.ByteFile
open P2PFileTransfer.Foundation.FileSystem
open P2PFileTransfer.Foundation.FixedWidth
open P2PFileTransfer.Foundation.Process
open P2PFileTransfer.Foundation.UnixPath
open P2PFileTransfer.Core.Protocol
open P2PFileTransfer.Core.TransferFile
open P2PFileTransfer.Core.FileReceiver

abbrev FileState := State Stage Unit Error

/-- The states a stream leaves behind: the one after it was read, and, when it is
written, every outcome of that write. -/
inductive Handled (session : Session) (task : Task) (seen : List Nat) (store : Store) (raw : Bytes) :
    FileState → Prop where
  | read {after : FileState}
      (hread : (machine session task).step ⟨.running (.acceptUni seen), store⟩ (.stream raw) =
        some after) : Handled session task seen store raw after
  | written {middle after : FileState} {known : List Nat} {index offset : Nat} {data : Bytes}
      {input : Input Message Bool Error}
      (hread : (machine session task).step ⟨.running (.acceptUni seen), store⟩ (.stream raw) =
        some middle)
      (hwriting : middle.status = .running (.writeChunk known index offset data))
      (hwrite : (machine session task).step middle input = some after) :
      Handled session task seen store raw after

/-- The bytes outside slot `index` are the old ones, a new byte outside it is a
zero of a hole, and the file ends inside its chunks. -/
structure InSlot (size totalChunks index : Nat) (old new : Bytes) : Prop where
  kept : ∀ position, position < old.length →
    (position < index * size ∨ (index + 1) * size ≤ position) → new[position]? = old[position]?
  hole : ∀ position, old.length ≤ position →
    (position < index * size ∨ (index + 1) * size ≤ position) →
    new[position]? = none ∨ new[position]? = some 0
  length_le : new.length ≤ max old.length (totalChunks * size)

/-- The stream touches its own slot of the partial file and nothing else; out of
range or repeated it touches nothing. -/
def SlotConfined (session : Session) (task : Task) (seen : List Nat) (raw : Bytes) : Prop :=
  ∀ store after, Handled session task seen store raw after →
    (∀ location, location ≠ task.partialLocation → after.store location = store location) ∧
    (∀ old, store task.partialLocation = some old →
      ∃ new, after.store task.partialLocation = some new ∧
        InSlot session.config.chunkSize.toNat task.totalChunks (streamIndex raw) old new) ∧
    (task.totalChunks ≤ streamIndex raw ∨ streamIndex raw ∈ seen → after.store = store)

/-- The bytes the payload of a stream stands for. -/
def payloadBytes (codec : Codec) (raw : Bytes) : Option Bytes :=
  if streamCompressed raw then (codec.decodeAll (streamPayload raw)).toOption
  else some (streamPayload raw)

/-- A well-formed stream for a fresh index in range with more than a chunk of bytes. -/
structure Oversized (session : Session) (task : Task) (seen : List Nat) (raw : Bytes) : Prop where
  length_le : raw.length ≤ maxChunkStreamBytes
  header_le : chunkHeaderBytes ≤ raw.length
  inRange : streamIndex raw < task.totalChunks
  fresh : streamIndex raw ∉ seen
  permitted : streamCompressed raw = true → session.config.compressionEnabled = true
  large : ∃ data, payloadBytes session.codec raw = some data ∧
    session.config.chunkSize.toNat < data.length

variable {session : Session} {task : Task} {seen : List Nat} {raw : Bytes}

theorem inSlot_refl (size totalChunks index : Nat) (old : Bytes) :
    InSlot size totalChunks index old old where
  kept := fun _ _ _ => rfl
  hole := fun _ hnew _ => Or.inl (List.getElem?_eq_none hnew)
  length_le := Nat.le_max_left _ _

/-- Writing at most one chunk at the offset of an index in range stays in its slot. -/
theorem inSlot_writeAt {size totalChunks index : Nat} (hrange : index < totalChunks)
    (old : Bytes) {data : Bytes} (hfits : data.length ≤ size) :
    InSlot size totalChunks index old (writeAt old (index * size) data) := by
  have hslot : (index + 1) * size = index * size + size := Nat.succ_mul index size
  have hend : (index + 1) * size ≤ totalChunks * size := Nat.mul_le_mul_right size hrange
  constructor
  · intro position hold houtside
    refine getElem?_writeAt_outside hold ?_
    rcases houtside with hbefore | hafter
    · exact Or.inl hbefore
    · exact Or.inr (by omega)
  · intro position hnew houtside
    rcases houtside with hbefore | hafter
    · by_cases hdata : data = []
      · rw [hdata, writeAt_nil]
        exact Or.inl (List.getElem?_eq_none hnew)
      · exact Or.inr (getElem?_writeAt_gap hdata hbefore hnew)
    · rw [getElem?_writeAt_after (by omega)]
      exact Or.inl (List.getElem?_eq_none hnew)
  · have hlength := length_writeAt_le old data (index * size)
    omega

/-- Reading a stream leaves the store alone. -/
theorem store_of_read {store : Store} {after : FileState}
    (hread : (machine session task).step ⟨.running (.acceptUni seen), store⟩ (.stream raw) =
      some after) :
    after = ⟨handleStream session task seen raw, store⟩ := by
  cases hread
  rfl

/-- When a write follows, it writes the accepted bytes at the offset of their index. -/
theorem accept_of_writing {known : List Nat} {index offset : Nat} {data : Bytes}
    (hwriting : handleStream session task seen raw =
      .running (.writeChunk known index offset data)) :
    acceptChunk session.codec session.config task.totalChunks seen raw = .ok (some (index, data)) ∧
      offset = index * session.config.chunkSize.toNat := by
  rcases handleStream_cases session task seen raw with
    ⟨error, _, hresult⟩ | ⟨_, hresult⟩ | ⟨other, bytes, haccept, ⟨fault, hresult, _⟩ | hresult⟩
  · rw [hresult] at hwriting
    cases hwriting
  · rw [hresult] at hwriting
    cases hwriting
  · rw [hresult] at hwriting
    cases hwriting
  · rw [hresult] at hwriting
    cases hwriting
    exact ⟨haccept, rfl⟩

/-- A write, complete or not, puts a beginning of its data at its offset. -/
theorem store_of_write {known : List Nat} {index offset : Nat} {data : Bytes} {store : Store}
    {input : Input Message Bool Error} {after : FileState}
    (hwrite : (machine session task).step
      ⟨.running (.writeChunk known index offset data), store⟩ input = some after) :
    ∃ count, after.store = set store task.partialLocation
      ((store task.partialLocation).map fun bytes => writeAt bytes offset (data.take count)) := by
  cases stepped_of_step hwrite with
  | fail hstatus hstore hnext =>
      cases hstatus
      cases hstore
      rw [hnext]
      exact ⟨_, rfl⟩
  | resume hstatus hreply hnext =>
      cases hstatus
      cases input with
      | proceed =>
          cases hreply
          rw [hnext]
          exact ⟨data.length, by rw [List.take_length]⟩
      | answer _ | message _ | stream _ | fail _ _ => cases hreply

theorem slotConfined_of_not_oversized (hsmall : ¬ Oversized session task seen raw) :
    SlotConfined session task seen raw := by
  intro store after hhandled
  cases hhandled with
  | read hread =>
      rw [store_of_read hread]
      exact ⟨fun _ _ => rfl, fun old hold => ⟨old, hold, inSlot_refl _ _ _ _⟩, fun _ => rfl⟩
  | written hread hwriting hwrite =>
      rename_i middle known index offset data input
      rw [store_of_read hread] at hwriting hwrite
      dsimp only at hwriting
      rw [hwriting] at hwrite
      obtain ⟨haccept, hoffset⟩ := accept_of_writing hwriting
      obtain ⟨hlong, hshort, hindex, hrange, hfresh, hpayload⟩ :=
        acceptChunk_eq_some_iff.mp haccept
      obtain ⟨count, hstore⟩ := store_of_write hwrite
      subst hindex hoffset
      have hfits : data.length ≤ session.config.chunkSize.toNat := by
        refine Nat.le_of_not_lt fun hlarge => hsmall ⟨hlong, hshort, hrange, hfresh, ?_, data, ?_, hlarge⟩
        · rcases hpayload with ⟨_, henabled, _⟩ | ⟨hplain, _⟩
          · exact fun _ => henabled
          · exact fun hflag => absurd hflag (by rw [hplain]; exact Bool.false_ne_true)
        · rcases hpayload with ⟨hflag, _, hdecode⟩ | ⟨hplain, rfl⟩
          · rw [payloadBytes, if_pos hflag, hdecode]
            rfl
          · rw [payloadBytes, hplain, if_neg Bool.false_ne_true]
      have htaken : (data.take count).length ≤ session.config.chunkSize.toNat :=
        Nat.le_trans (List.length_take_le' count data) hfits
      refine ⟨?_, ?_, ?_⟩
      · intro location hother
        rw [hstore]
        exact set_ne _ _ hother
      · intro old hold
        rw [hstore, set_self, hold]
        exact ⟨_, rfl, inSlot_writeAt hrange old htaken⟩
      · rintro (hout | hseen)
        · exact absurd hrange (Nat.not_lt.mpr hout)
        · exact absurd hseen hfresh

/-- A payload longer than a chunk overwrites the first byte of the next slot. -/
theorem not_slotConfined_of_oversized
    (hfits : task.totalChunks * session.config.chunkSize.toNat < 2 ^ 64)
    (hlarge : Oversized session task seen raw) : ¬ SlotConfined session task seen raw := by
  intro hconfined
  obtain ⟨data, hbytes, hlength⟩ := hlarge.large
  have hpayload : streamCompressed raw = true ∧ session.config.compressionEnabled = true ∧
      session.codec.decodeAll (streamPayload raw) = .ok data ∨
      streamCompressed raw = false ∧ data = streamPayload raw := by
    cases hflag : streamCompressed raw with
    | true =>
        refine Or.inl ⟨rfl, hlarge.permitted hflag, ?_⟩
        rw [payloadBytes, if_pos hflag] at hbytes
        cases hdecode : session.codec.decodeAll (streamPayload raw) with
        | error detail =>
            rw [hdecode] at hbytes
            cases hbytes
        | ok decoded =>
            rw [hdecode] at hbytes
            cases hbytes
            rfl
    | false =>
        refine Or.inr ⟨rfl, ?_⟩
        rw [payloadBytes, hflag, if_neg Bool.false_ne_true] at hbytes
        exact (Option.some.inj hbytes).symm
  have haccept : acceptChunk session.codec session.config task.totalChunks seen raw =
      .ok (some (streamIndex raw, data)) :=
    acceptChunk_eq_some_iff.mpr ⟨hlarge.length_le, hlarge.header_le, rfl, hlarge.inRange,
      hlarge.fresh, hpayload⟩
  have hmul : mul 64 (streamIndex raw) session.config.chunkSize.toNat =
      .ok (streamIndex raw * session.config.chunkSize.toNat) := by
    refine mul_eq_ok (Nat.lt_of_le_of_lt ?_ hfits)
    exact Nat.mul_le_mul_right _ (Nat.le_of_lt hlarge.inRange)
  have hhandle : handleStream session task seen raw =
      .running (.writeChunk (streamIndex raw :: seen) (streamIndex raw)
        (streamIndex raw * session.config.chunkSize.toNat) data) := by
    rw [handleStream, haccept]
    simp only [Status.ofExcept, Status.ofChecked, hmul]
  -- A file that reaches one byte past the slot, filled with a byte the payload lacks there.
  have hbyte : ∃ byte, data[session.config.chunkSize.toNat]? = some byte :=
    ⟨_, List.getElem?_eq_getElem hlength⟩
  obtain ⟨byte, hbyte⟩ := hbyte
  have hslot : (streamIndex raw + 1) * session.config.chunkSize.toNat =
      streamIndex raw * session.config.chunkSize.toNat + session.config.chunkSize.toNat :=
    Nat.succ_mul _ _
  let old : Bytes :=
    List.replicate ((streamIndex raw + 1) * session.config.chunkSize.toNat + 1) (byte + 1)
  let store : Store := fun _ => some old
  have hread : (machine session task).step ⟨.running (.acceptUni seen), store⟩ (.stream raw) =
      some ⟨.running (.writeChunk (streamIndex raw :: seen) (streamIndex raw)
        (streamIndex raw * session.config.chunkSize.toNat) data), store⟩ := by
    rw [← hhandle]
    rfl
  have hwrite : (machine session task).step ⟨.running (.writeChunk (streamIndex raw :: seen)
      (streamIndex raw) (streamIndex raw * session.config.chunkSize.toNat) data), store⟩ .proceed =
      some ⟨continueLoop task (streamIndex raw :: seen),
        set store task.partialLocation (some (writeAt old
          (streamIndex raw * session.config.chunkSize.toNat) data))⟩ := rfl
  obtain ⟨new, hnew, hslotted⟩ := (hconfined store _ (Handled.written hread rfl hwrite)).2.1 old rfl
  dsimp only at hnew
  rw [set_self] at hnew
  cases hnew
  have hkept := hslotted.kept ((streamIndex raw + 1) * session.config.chunkSize.toNat)
    (by simp [old]) (Or.inr (Nat.le_refl _))
  rw [getElem?_writeAt_inside (by omega) (by omega), hslot, Nat.add_sub_cancel_left, hbyte] at hkept
  simp [old, List.getElem?_replicate] at hkept

/-- A stream is confined to its slot exactly when it is not oversized.  The product
bounded here is the one the call computes before its first stream. -/
theorem slotConfined_iff (session : Session) (task : Task) (seen : List Nat) (raw : Bytes)
    (hfits : task.totalChunks * session.config.chunkSize.toNat < 2 ^ 64) :
    SlotConfined session task seen raw ↔ ¬ Oversized session task seen raw := by
  constructor
  · intro hconfined hlarge
    exact not_slotConfined_of_oversized hfits hlarge hconfined
  · exact slotConfined_of_not_oversized

/-- Two chunks of two bytes, as `Session` and `Task` of closed runs. -/
def twoByteSession : Session where
  codec := .stored fun _ => FixedBytes.filled 32 0
  config := { ConfigMessage.default with chunkSize := 2 }
  transferId := FixedBytes.filled 16 0

def twoChunkTask : Task where
  path := [102]
  fileIndex := 0
  totalChunks := 2
  streamsToReceive := 2

theorem slotConfined_iff_short :
    SlotConfined twoByteSession twoChunkTask [0] (chunkStream 1 false [7, 8]) := by
  refine (slotConfined_iff twoByteSession twoChunkTask [0] _ (by decide)).mpr ?_
  rintro ⟨_, _, _, _, _, data, hdata, hlarge⟩
  cases hdata
  exact absurd hlarge (by decide)

/-- Three bytes sent for chunk 0 change the first byte of chunk 1. -/
theorem oversized_stream_leaves_slot :
    ¬ SlotConfined twoByteSession twoChunkTask [] (chunkStream 0 false [7, 8, 9]) := by
  refine not_slotConfined_of_oversized (by decide) ⟨by decide, by decide, by decide, by decide,
    ?_, [7, 8, 9], rfl, by decide⟩
  exact fun _ => rfl

end P2PFileTransfer.Transfer.SlotConfinement
