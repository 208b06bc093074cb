import Mathlib.Logic.Function.Basic
import P2PFileTransfer.Core.Protocol
import P2PFileTransfer.Foundation.ByteFile

/-!
# The transfer history

Any number of calls append one record each to the same history file.  A call is a
sequence of operations on files that other calls make in between; every operation can
fail, and the process of a call can die between any two of them.  The lock is held by at
most one call and is free again when its call returns or dies.
-/

namespace P2PFileTransfer.Core.History

open P2PFileTransfer.Foundation.ByteFile
open P2PFileTransfer.Foundation.UnixPath
open P2PFileTransfer.Core.Protocol

structure TransferHistory (Record : Type) where
  records : List Record
  deriving DecidableEq, Repr

variable {Record : Type}

def TransferHistory.new : TransferHistory Record := ⟨[]⟩

def TransferHistory.addRecord (history : TransferHistory Record) (record : Record) :
    TransferHistory Record := ⟨history.records ++ [record]⟩

/-- The serializer of histories. -/
structure Json (Record : Type) where
  toVecPretty : TransferHistory Record → Bytes
  fromSlice : Bytes → Option (TransferHistory Record)
  fromSlice_toVecPretty : ∀ history, fromSlice (toVecPretty history) = some history
  /-- No value has an empty text. -/
  fromSlice_nil : fromSlice [] = none

/-! ## Names -/

def siblingPath (path suffix : OsStr) : OsStr := path ++ suffix

/-- `.lock` -/
def lockSuffix : OsStr := [46, 108, 111, 99, 107]

/-- `.tmp` -/
def tmpSuffix : OsStr := [46, 116, 109, 112]

/-- `.corrupt-` -/
def corruptSuffix : OsStr := [46, 99, 111, 114, 114, 117, 112, 116, 45]

def decimal (number : Nat) : OsStr :=
  (Nat.toDigits 10 number).map fun digit => UInt8.ofNat digit.toNat

def lockPath (path : OsStr) : OsStr := siblingPath path lockSuffix

def tmpPath (path : OsStr) : OsStr := siblingPath path tmpSuffix

def quarantinePath (path : OsStr) (secs : Nat) : OsStr :=
  siblingPath path (corruptSuffix ++ decimal secs)

/-! ## A call -/

/-- The operation a call is at. -/
inductive Stage (Record : Type) where
  | idle
  | createDirAll
  | openLock
  | lockExclusive
  | read
  | quarantine
  | serialize (history : TransferHistory Record)
  | openTmp (data : Bytes)
  | writeAll (data : Bytes) (written : Nat)
  | syncAll
  | rename
  | unlock
  | finished (result : Except Error Unit)
  | crashed

/-- The files by their names, who holds the lock, and where the calls are. -/
structure World (Record : Type) where
  files : OsStr → Option Bytes
  holder : Option Nat
  stages : Nat → Stage Record

def atRest (files : OsStr → Option Bytes) : World Record := ⟨files, none, fun _ => .idle⟩

def World.goto (world : World Record) (call : Nat) (stage : Stage Record) : World Record :=
  { world with stages := Function.update world.stages call stage }

def World.put (world : World Record) (name : OsStr) (contents : Option Bytes) : World Record :=
  { world with files := Function.update world.files name contents }

/-- Dropping the handle of the lock file releases the lock. -/
def World.release (world : World Record) (call : Nat) : World Record :=
  { world with holder := if world.holder = some call then none else world.holder }

inductive Input where
  | start
  /-- The operation succeeds; the clock shows `now`. -/
  | proceed (now : Nat)
  /-- One write of a `write_all`. -/
  | wrote (count : Nat)
  | fail (detail : Text)
  | crash

/-- What a call returns when its operation fails.  A lock that cannot be released is only
logged. -/
def Stage.failure (detail : Text) : Stage Record → Option (Except Error Unit)
  | .idle | .finished _ | .crashed => none
  | .serialize _ => some (.error (.protocol (.text "Failed to serialize history: " :: detail)))
  | .unlock => some (.ok ())
  | _ => some (.error (.network detail))

/-- What `load_or_quarantine` does with the bytes it read. -/
def parse (json : Json Record) (buf : Bytes) : Stage Record :=
  if buf = [] then .serialize .new
  else
    match json.fromSlice buf with
    | some history => .serialize history
    | none => .quarantine

/-- `append_record_locked`, one operation at a time. -/
def World.advance (json : Json Record) (path : OsStr) (record : Record) (world : World Record)
    (call : Nat) : Stage Record → Input → Option (World Record)
  | .idle, .start =>
      some (world.goto call (if (parent path).isSome then .createDirAll else .openLock))
  | .createDirAll, .proceed _ => some (world.goto call .openLock)
  | .openLock, .proceed _ =>
      some ((world.put (lockPath path) (some ((world.files (lockPath path)).getD []))).goto call
        .lockExclusive)
  | .lockExclusive, .proceed _ =>
      match world.holder with
      | none => some ({ world with holder := some call }.goto call .read)
      | some _ => none
  | .read, .proceed _ =>
      match world.files path with
      | none => some (world.goto call (.serialize .new))
      | some buf => some (world.goto call (parse json buf))
  | .quarantine, .proceed now =>
      (world.files path).map fun buf =>
        ((world.put path none).put (quarantinePath path now) (some buf)).goto call
          (.serialize .new)
  | .serialize history, .proceed _ =>
      some (world.goto call (.openTmp (json.toVecPretty (history.addRecord record))))
  | .openTmp data, .proceed _ =>
      some ((world.put (tmpPath path) (some [])).goto call (.writeAll data 0))
  | .writeAll data written, .wrote count =>
      if 0 < count ∧ written + count ≤ data.length then
        some ((world.put (tmpPath path) ((world.files (tmpPath path)).map fun file =>
          writeAt file written ((data.drop written).take count))).goto call
            (.writeAll data (written + count)))
      else none
  | .writeAll data written, .proceed _ =>
      if written = data.length then some (world.goto call .syncAll) else none
  | .syncAll, .proceed _ => some (world.goto call .rename)
  | .rename, .proceed _ =>
      (world.files (tmpPath path)).map fun data =>
        ((world.put (tmpPath path) none).put path (some data)).goto call .unlock
  | .unlock, .proceed _ => some ((world.release call).goto call (.finished (.ok ())))
  | stage, .fail detail =>
      (stage.failure detail).map fun result => (world.release call).goto call (.finished result)
  | stage, .crash =>
      (stage.failure []).map fun _ => (world.release call).goto call .crashed
  | _, _ => none

/-- Call number `call` appends `records call`. -/
def step (json : Json Record) (path : OsStr) (records : Nat → Record) (world : World Record)
    (event : Nat × Input) : Option (World Record) :=
  world.advance json path (records event.1) event.1 (world.stages event.1) event.2

end P2PFileTransfer.Core.History
