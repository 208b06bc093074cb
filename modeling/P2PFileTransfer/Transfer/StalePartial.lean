import P2PFileTransfer.Transfer.SingleFile

/-!
# A whole file received over a stale partial file

`ChunkWriter::new` cuts a leftover partial file to a whole number of chunks, and the last
chunk of a file may be short.  What the leftover holds between the two ends stays behind
the source, so the final file is the source exactly when there is nothing between them.
-/

namespace P2PFileTransfer.Transfer.StalePartial

open P2PFileTransfer.Foundation.ByteFile
open P2PFileTransfer.Foundation.FileSystem
open P2PFileTransfer.Foundation.FixedWidth
open P2PFileTransfer.Foundation.Process
open P2PFileTransfer.Foundation.UnixPath
open P2PFileTransfer.Core
open P2PFileTransfer.Core.Protocol
open P2PFileTransfer.Core.TransferFile
open P2PFileTransfer.Core.FolderSender (mem_remaining remaining)
open P2PFileTransfer.Transfer.Schedule (length_remaining nodup_remaining)
open P2PFileTransfer.Transfer.SingleFile

/-- Every chunk of the file arrives, in any order and with repetitions, and nothing else. -/
structure Whole (session : FileReceiver.Session) (bytes : Bytes) (arrivals : List Bytes) :
    Prop where
  sound : ∀ raw ∈ arrivals, IsOutstanding session bytes [] raw
  all : ∀ chunk < chunksOf bytes.length session.config.chunkSize.toNat,
    chunk ∈ arrivals.map streamIndex

/-- The source, and behind it the rest of a file that no chunk covers. -/
def leftBehind (bytes file : Bytes) : Bytes := bytes ++ file.drop bytes.length

/-- The partial file on its way, over an old one. -/
structure Overwriting (size : Nat) (bytes old : Bytes) (seen : List Nat) (file : Bytes) :
    Prop where
  written : ∀ chunk ∈ seen, SlotAgrees file bytes size chunk
  behind : ∀ position, bytes.length ≤ position → file[position]? = old[position]?
  nodup : seen.Nodup
  outstanding : ∀ chunk ∈ seen, chunk ∈ remaining [] (chunksOf bytes.length size)

section Overwriting

variable {size : Nat} {bytes old file : Bytes} {seen : List Nat}

theorem overwriting_start (size : Nat) (bytes old : Bytes) : Overwriting size bytes old [] old :=
  ⟨fun _ hmem => absurd hmem List.not_mem_nil, fun _ _ => rfl, List.nodup_nil,
    fun _ hmem => absurd hmem List.not_mem_nil⟩

/-- No chunk of the source reaches behind its end. -/
theorem Overwriting.write (hsize : 0 < size) :
    KeptByWrites size bytes [] (Overwriting size bytes old) := by
  intro seen file chunk hover hchunk hfresh
  have hinside := mul_lt_of_lt_chunksOf hsize (mem_remaining.mp hchunk).1
  refine ⟨slotAgrees_written hover.written hfresh, ?_, List.nodup_cons.mpr ⟨hfresh, hover.nodup⟩,
    List.forall_mem_cons.mpr ⟨hchunk, hover.outstanding⟩⟩
  intro position hposition
  have hend : chunk * size + (chunkAt bytes size chunk).length ≤ position := by
    rw [length_chunkAt]
    omega
  rw [getElem?_writeAt_after hend]
  exact hover.behind position hposition

/-- When all chunks were seen, the old file is left behind the source. -/
theorem Overwriting.complete (hover : Overwriting size bytes old seen file) (hsize : 0 < size)
    (hcount : (remaining [] (chunksOf bytes.length size)).length ≤ seen.length) :
    file = leftBehind bytes old := by
  have hagrees : ∀ chunk, chunk < chunksOf bytes.length size → SlotAgrees file bytes size chunk :=
    fun chunk hchunk => hover.written chunk (mem_seen_of_count hover.nodup hover.outstanding hcount
      (mem_remaining.mpr ⟨hchunk, List.not_mem_nil⟩))
  apply List.ext_getElem?
  intro position
  by_cases hinside : position < bytes.length
  · rw [leftBehind, List.getElem?_append_left hinside]
    exact getElem?_of_slotAgrees hsize (le_chunksOf_mul bytes.length hsize) hagrees hinside
  · have houtside : bytes.length ≤ position := Nat.le_of_not_lt hinside
    rw [leftBehind, List.getElem?_append_right houtside, List.getElem?_drop,
      Nat.add_sub_cancel' houtside]
    exact hover.behind position houtside

end Overwriting

theorem leftBehind_eq_iff {bytes file : Bytes} :
    leftBehind bytes file = bytes ↔ file.length ≤ bytes.length := by
  rw [leftBehind, List.append_right_eq_self, List.drop_eq_nil_iff]

/-- The last chunk is full exactly when the chunks have no room behind the file. -/
theorem chunksOf_mul_le_iff {fileSize chunkSize : Nat} (hpos : 0 < chunkSize) :
    chunksOf fileSize chunkSize * chunkSize ≤ fileSize ↔ chunkSize ∣ fileSize := by
  constructor
  · intro hle
    have hsame := Nat.le_antisymm hle (le_chunksOf_mul fileSize hpos)
    exact ⟨chunksOf fileSize chunkSize, by rw [Nat.mul_comm]; exact hsame.symm⟩
  · rintro ⟨count, rfl⟩
    rw [Nat.mul_comm]
    apply Nat.mul_le_mul_left
    have hbound := chunksOf_mul_lt (chunkSize * count) hpos
    rw [Nat.mul_comm, ← Nat.mul_succ] at hbound
    exact Nat.le_of_lt_succ (Nat.lt_of_mul_lt_mul_left hbound)

/-! ## Runs of the call -/

section Receiving

variable {session : FileReceiver.Session} {task : FileReceiver.Task} {store : Store}
  {arrivals : List Bytes}

/-- A call that is about to send its checksum goes on to wait for the peer. -/
theorem undisturbed_checksum {checksum digest : Digest} {files final : Store}
    {opened taken : List Bytes}
    (hrun : Undisturbed (FileReceiver.machine session task)
      ⟨.running (.sendChecksum checksum), files⟩ opened taken
      ⟨.running (.sendChecksum digest), final⟩) : digest = checksum ∧ final = files := by
  cases hrun with
  | refl _ => exact ⟨rfl, rfl⟩
  | proceed hstep hrest =>
      cases hstep
      cases hrest with
      | proceed hrefused _ => cases hrefused
      | stream hrefused _ => cases hrefused
  | stream hrefused _ => cases hrefused

/-- The streams that arrive decide what a call leaves. -/
theorem receives_unique {contents other : Bytes} {checksum digest : Digest}
    (hfirst : Receives session task store arrivals contents checksum)
    (hsecond : Receives session task store arrivals other digest) : other = contents := by
  obtain ⟨taken, final, htaken, hrun, hcontents⟩ := hfirst
  obtain ⟨further, last, hfurther, hother, hlast⟩ := hsecond
  have hsame : last = final := by
    rcases hrun.comparable hother htaken hfurther with
      ⟨rest, drawn, hends, _, _⟩ | ⟨rest, drawn, hends, _, _⟩
    · exact (undisturbed_checksum hends).2
    · exact (undisturbed_checksum hends).2.symm
  rw [hsame, hcontents] at hlast
  exact (Option.some.inj hlast).symm

variable {bytes : Bytes} {path : OsStr} {index : Nat}

/-- The call ends, and leaves the source and what was behind it. -/
theorem receives_leftBehind (hchunkSize : session.config.chunkSize ≠ 0)
    (hlength : bytes.length < 2 ^ 63) {leftover : Bytes}
    (hleftover : (store (components (FileReceiver.partialPath path))).getD [] = leftover)
    (hwhole : Whole session bytes arrivals) :
    ∃ contents checksum, Receives session
        (taskFor path index session.config.chunkSize.toNat bytes []) store arrivals contents
        checksum ∧
      contents = leftBehind bytes (shrinkTo leftover
        (chunksOf bytes.length session.config.chunkSize.toNat * session.config.chunkSize.toNat)) := by
  have hpos := chunkSize_pos hchunkSize
  have hcount := @length_remaining [] (chunksOf bytes.length session.config.chunkSize.toNat)
    List.nodup_nil (fun _ hmem => absurd hmem List.not_mem_nil)
  obtain ⟨opened, hopen, hopened⟩ :=
    @undisturbed_openWriter session bytes [] path index hchunkSize hlength _ rfl _ _ hleftover
  obtain ⟨taken, known, full, contents, hprefix, hloop, hfull, hknown, hmany⟩ :=
    undisturbed_arrivals hchunkSize hlength (Overwriting.write hpos) rfl hcount arrivals hopened
      (overwriting_start _ _ _) hwhole.sound
      (fun chunk hchunk => Or.inr (hwhole.all chunk (mem_remaining.mp hchunk).1))
  obtain ⟨final, hfinish, hfinal⟩ := undisturbed_finalize hfull
  have hrun := (hopen.append hloop).append hfinish
  simp only [List.append_nil, List.nil_append] at hrun
  exact ⟨contents, _, ⟨taken, final, hprefix, hrun, hfinal⟩, hknown.complete hpos (hcount ▸ hmany)⟩

/-- A whole receive leaves exactly the source when the leftover is no longer than it, or
when the source ends with a full chunk. -/
theorem source_received_iff (hchunkSize : session.config.chunkSize ≠ 0)
    (hlength : bytes.length < 2 ^ 63) (hwhole : Whole session bytes arrivals) :
    (∃ checksum, Receives session (taskFor path index session.config.chunkSize.toNat bytes [])
        store arrivals bytes checksum) ↔
      ((store (components (FileReceiver.partialPath path))).getD []).length ≤ bytes.length ∨
        session.config.chunkSize.toNat ∣ bytes.length := by
  obtain ⟨contents, checksum, hreceives, hcontents⟩ :=
    @receives_leftBehind session store arrivals bytes path index hchunkSize hlength _ rfl hwhole
  have hshort : contents = bytes ↔
      ((store (components (FileReceiver.partialPath path))).getD []).length ≤ bytes.length ∨
        session.config.chunkSize.toNat ∣ bytes.length := by
    rw [hcontents, leftBehind_eq_iff, shrinkTo, List.length_take, min_le_iff,
      chunksOf_mul_le_iff (chunkSize_pos hchunkSize), or_comm]
  rw [← hshort]
  constructor
  · rintro ⟨digest, hsource⟩
    exact receives_unique hsource hreceives
  · intro hsame
    exact ⟨checksum, hsame ▸ hreceives⟩

end Receiving

/-- Chunks of four bytes, and no compression. -/
def quadSession : FileReceiver.Session where
  codec := greetingSession.codec
  config := { ConfigMessage.default with compressionEnabled := false, chunkSize := 4 }
  transferId := FixedBytes.filled 16 0

/-- An earlier version of the file was one byte longer. -/
def longerStore : Store := fun location =>
  if location = components (FileReceiver.partialPath [111]) then some [104, 101, 33] else none

theorem isOutstanding_greeting : IsOutstanding quadSession greeting [] (chunkStream 0 false greeting) where
  outstanding := by decide
  carries := ⟨greeting, false, rfl, Or.inr ⟨rfl, rfl⟩⟩
  length_le := by decide

theorem whole_greeting :
    Whole quadSession greeting [chunkStream 0 false greeting, chunkStream 0 false greeting] := by
  constructor
  · intro raw hraw
    have hsame : raw = chunkStream 0 false greeting := by
      rcases List.mem_cons.mp hraw with hsame | hrest
      · exact hsame
      · exact List.mem_singleton.mp hrest
    rw [hsame]
    exact isOutstanding_greeting
  · intro chunk hchunk
    have hzero : chunk = 0 := Nat.lt_one_iff.mp hchunk
    rw [hzero]
    exact List.mem_cons_self

theorem source_received_iff_greeting :
    (∃ checksum, Receives quadSession (taskFor [111] 0 4 greeting []) longerStore
        [chunkStream 0 false greeting, chunkStream 0 false greeting] greeting checksum) ↔
      ((longerStore (components (FileReceiver.partialPath [111]))).getD []).length ≤ 2 ∨ 4 ∣ 2 :=
  source_received_iff (by decide) (by decide) whole_greeting

/-- The third byte of the earlier version stays. -/
theorem stale_byte_kept :
    ¬ ∀ (session : FileReceiver.Session) (store : Store) (arrivals : List Bytes) (bytes : Bytes)
        (path : OsStr) (index : Nat), session.config.chunkSize ≠ 0 → bytes.length < 2 ^ 63 →
        Whole session bytes arrivals →
        ∃ checksum, Receives session (taskFor path index session.config.chunkSize.toNat bytes [])
          store arrivals bytes checksum := by
  intro hclaim
  obtain ⟨checksum, hsource⟩ := hclaim quadSession longerStore _ greeting [111] 0 (by decide)
    (by decide) whole_greeting
  obtain ⟨contents, digest, hreceives, hcontents⟩ :=
    @receives_leftBehind quadSession longerStore _ greeting [111] 0 (by decide) (by decide)
      [104, 101, 33] (by decide) whole_greeting
  have hsame := receives_unique hsource hreceives
  rw [hcontents] at hsame
  revert hsame
  decide

end P2PFileTransfer.Transfer.StalePartial
