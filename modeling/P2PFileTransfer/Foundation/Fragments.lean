import P2PFileTransfer.Foundation.ByteFile

/-!
# Reading a byte stream in fragments

A read returns some of the bytes that were asked for, at least one while there are any.
How many is decided by the stream, read by read; nothing comes back at its end.  A read of
an exact number of bytes repeats single reads, and what it returns does not depend on the
fragments.
-/

namespace P2PFileTransfer.Foundation.Fragments

open P2PFileTransfer.Foundation.ByteFile

/-- The bytes up to the end of the stream, and what it would like to return in each of the
reads to come. -/
structure Reader where
  bytes : Bytes
  sizes : Nat → Nat

/-- The number of bytes the next read returns. -/
def Reader.share (reader : Reader) (wanted : Nat) : Nat :=
  min (min wanted reader.bytes.length) (max 1 (reader.sizes 0))

def Reader.read (reader : Reader) (wanted : Nat) : Bytes × Reader :=
  (reader.bytes.take (reader.share wanted),
    ⟨reader.bytes.drop (reader.share wanted), fun round => reader.sizes (round + 1)⟩)

/-- Read until `wanted` bytes are there, in at most `rounds` reads. -/
def Reader.fill (reader : Reader) (wanted : Nat) : Nat → Option Bytes × Reader
  | 0 => (if wanted = 0 then some [] else none, reader)
  | rounds + 1 =>
      if wanted = 0 then (some [], reader)
      else
        let (got, next) := reader.read wanted
        if got = [] then (none, next)
        else
          let (rest, final) := next.fill (wanted - got.length) rounds
          (rest.map fun bytes => got ++ bytes, final)

/-- `read_exact`: every read yields a byte, or the stream has ended. -/
def Reader.readExact (reader : Reader) (wanted : Nat) : Option Bytes × Reader :=
  reader.fill wanted wanted

variable {reader : Reader} {wanted : Nat}

theorem share_bounds (hwanted : 0 < wanted) (hbytes : reader.bytes ≠ []) :
    0 < reader.share wanted ∧ reader.share wanted ≤ wanted ∧
      reader.share wanted ≤ reader.bytes.length := by
  have hlength := List.length_pos_iff.mpr hbytes
  rw [Reader.share]
  omega

theorem read_of_nil (hbytes : reader.bytes = []) (wanted : Nat) :
    (reader.read wanted).1 = [] := by
  rw [Reader.read, hbytes, List.take_nil]

theorem fill_zero (reader : Reader) (rounds : Nat) : reader.fill 0 rounds = (some [], reader) := by
  cases rounds <;> rfl

theorem fill_nil (hwanted : 0 < wanted) (hbytes : reader.bytes = []) (rounds : Nat) :
    (reader.fill wanted rounds).1 = none := by
  cases rounds with
  | zero => exact if_neg (Nat.pos_iff_ne_zero.mp hwanted)
  | succ rounds =>
      rw [Reader.fill, if_neg (Nat.pos_iff_ne_zero.mp hwanted)]
      dsimp only
      rw [if_pos (read_of_nil hbytes wanted)]

theorem fill_succ (hwanted : 0 < wanted) (hbytes : reader.bytes ≠ []) (rounds : Nat) :
    reader.fill wanted (rounds + 1) =
      (((reader.read wanted).2.fill (wanted - reader.share wanted) rounds).1.map fun rest =>
          reader.bytes.take (reader.share wanted) ++ rest,
        ((reader.read wanted).2.fill (wanted - reader.share wanted) rounds).2) := by
  obtain ⟨hpos, _, hinside⟩ := share_bounds hwanted hbytes
  have hlength : (reader.read wanted).1.length = reader.share wanted := by
    rw [Reader.read, List.length_take, Nat.min_eq_left hinside]
  have hsome : (reader.read wanted).1 ≠ [] := by
    intro hnone
    rw [hnone, List.length_nil] at hlength
    omega
  rw [Reader.fill, if_neg (Nat.pos_iff_ne_zero.mp hwanted)]
  dsimp only
  rw [if_neg hsome, hlength]
  rfl

/-- When the bytes are there, they are read, whatever the fragments. -/
theorem fill_eq_some (rounds : Nat) (hrounds : wanted ≤ rounds)
    (hbytes : wanted ≤ reader.bytes.length) :
    ∃ sizes, reader.fill wanted rounds =
      (some (reader.bytes.take wanted), ⟨reader.bytes.drop wanted, sizes⟩) := by
  induction rounds generalizing reader wanted with
  | zero =>
      rw [Nat.le_zero.mp hrounds, fill_zero]
      exact ⟨reader.sizes, rfl⟩
  | succ rounds ih =>
      rcases Nat.eq_zero_or_pos wanted with rfl | hwanted
      · rw [fill_zero]
        exact ⟨reader.sizes, rfl⟩
      · have hsome : reader.bytes ≠ [] := List.length_pos_iff.mp (by omega)
        obtain ⟨hpos, hless, hinside⟩ := share_bounds hwanted hsome
        have hleft : wanted - reader.share wanted ≤ (reader.read wanted).2.bytes.length := by
          rw [Reader.read, List.length_drop]
          omega
        obtain ⟨sizes, hfill⟩ := ih (by omega) hleft
        have htake : reader.bytes.take (reader.share wanted) ++
            (reader.bytes.drop (reader.share wanted)).take (wanted - reader.share wanted) =
              reader.bytes.take wanted := by
          rw [← List.take_add, Nat.add_sub_cancel' hless]
        have hdrop : (reader.bytes.drop (reader.share wanted)).drop (wanted - reader.share wanted) =
            reader.bytes.drop wanted := by
          rw [List.drop_drop, Nat.add_sub_cancel' hless]
        refine ⟨sizes, ?_⟩
        rw [fill_succ hwanted hsome, hfill]
        simp only [Option.map_some, Reader.read, htake, hdrop]

/-- When they are not all there, the stream ends before them. -/
theorem fill_eq_none (rounds : Nat) (hbytes : reader.bytes.length < wanted) :
    (reader.fill wanted rounds).1 = none := by
  induction rounds generalizing reader wanted with
  | zero => exact if_neg (by omega)
  | succ rounds ih =>
      have hwanted : 0 < wanted := by omega
      by_cases hnone : reader.bytes = []
      · exact fill_nil hwanted hnone _
      · obtain ⟨_, _, hinside⟩ := share_bounds hwanted hnone
        have hleft : (reader.read wanted).2.bytes.length < wanted - reader.share wanted := by
          rw [Reader.read, List.length_drop]
          omega
        rw [fill_succ hwanted hnone]
        dsimp only
        rw [ih hleft, Option.map_none]

theorem readExact_eq_some (hbytes : wanted ≤ reader.bytes.length) :
    ∃ sizes, reader.readExact wanted =
      (some (reader.bytes.take wanted), ⟨reader.bytes.drop wanted, sizes⟩) :=
  fill_eq_some wanted (Nat.le_refl _) hbytes

theorem readExact_eq_none (hbytes : reader.bytes.length < wanted) :
    (reader.readExact wanted).1 = none :=
  fill_eq_none wanted hbytes

end P2PFileTransfer.Foundation.Fragments
