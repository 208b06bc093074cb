import P2PFileTransfer.Session.Rendezvous

/-!
# Records of transfers

A record is made when a transfer begins and closed when it ends.  One that nobody closes
counts as interrupted.
-/

namespace P2PFileTransfer.Session.Records

open P2PFileTransfer.Foundation.UnixPath
open P2PFileTransfer.Core.Protocol
open P2PFileTransfer.Session.Rendezvous (SocketAddr)

inductive TransferDirection where
  | send
  | receive
  deriving DecidableEq, Repr

inductive TransferStatus where
  | completed
  | interrupted
  | failed
  deriving DecidableEq, Repr

/-- The address as it is printed, or the word that stands for it. -/
inductive PeerAddress where
  | printed (address : SocketAddr)
  | word (word : String)
  deriving DecidableEq, Repr

/-- An entry of the file list; the text of an error stands among the paths. -/
inductive RecordedFile where
  | path (path : OsStr)
  | error (error : Error)
  deriving DecidableEq, Repr

structure TransferRecord where
  transferId : Uuid
  startTime : Nat
  endTime : Nat
  direction : TransferDirection
  peerAddress : PeerAddress
  files : List RecordedFile
  bytesTransferred : Nat
  durationSecs : Nat
  status : TransferStatus
  deriving DecidableEq, Repr

namespace TransferRecord

def new (transferId : Uuid) (direction : TransferDirection) (peerAddress : PeerAddress)
    (now : Nat) : TransferRecord where
  transferId := transferId
  startTime := now
  endTime := now
  direction := direction
  peerAddress := peerAddress
  files := []
  bytesTransferred := 0
  durationSecs := 0
  status := .interrupted

/-- The clock may have gone back in the meantime. -/
def finish (record : TransferRecord) (status : TransferStatus) (now : Nat) : TransferRecord :=
  { record with endTime := now, durationSecs := now - record.startTime, status := status }

def complete (record : TransferRecord) (files : List OsStr) (bytes now : Nat) : TransferRecord :=
  { record.finish .completed now with files := files.map .path, bytesTransferred := bytes }

def interrupt (record : TransferRecord) (files : List OsStr) (bytes now : Nat) : TransferRecord :=
  { record.finish .interrupted now with files := files.map .path, bytesTransferred := bytes }

def fail (record : TransferRecord) (error : Error) (now : Nat) : TransferRecord :=
  { record.finish .failed now with files := record.files ++ [.error error] }

end TransferRecord

end P2PFileTransfer.Session.Records
