import P2PFileTransfer.Foundation.Slices
import P2PFileTransfer.Session.Rendezvous

/-!
# The STUN client

`p2p-core/src/traversal/stun.rs`: the request, the parser of responses and the loop of a
query.  A function that may index out of range returns an option, and `none` is the panic.
-/

namespace P2PFileTransfer.Session.Stun

open P2PFileTransfer.Foundation.ByteFile
open P2PFileTransfer.Foundation.FixedWidth
open P2PFileTransfer.Foundation.Slices
open P2PFileTransfer.Core.Protocol
open P2PFileTransfer.Session.Rendezvous (SocketAddr)

abbrev TransactionId := FixedBytes 12

def bindingRequest : Nat := 0x0001

def bindingResponse : Nat := 0x0101

def magicCookie : Nat := 0x2112A442

def attrMappedAddress : Nat := 0x0001

def attrXorMappedAddress : Nat := 0x0020

/-- The request, and the transaction id that is expected back. -/
def buildBindingRequest (random : TransactionId) : Bytes × TransactionId :=
  (toBigEndian 2 bindingRequest ++ (toBigEndian 2 0 ++ (toBigEndian 4 magicCookie ++ random.val)),
    random)

/-! ## Attributes -/

/-- `copy_from_slice` into an array of the given length. -/
def copyFromSlice (length : Nat) (bytes : Bytes) : Option Bytes :=
  if bytes.length = length then some bytes else none

def parseXorMapped (attr txId : Bytes) : Option (Except Error SocketAddr) :=
  if attr.length < 8 then some (.error (.protocol [.text "XOR-MAPPED-ADDRESS too short"]))
  else do
    let family ← attr[1]?
    let xorPort ← readBigEndian 2 attr 2
    let port := xorPort ^^^ truncate 16 (magicCookie >>> 16)
    if family = 0x01 then do
      let xorIp ← readBigEndian 4 attr 4
      some (.ok ⟨toBigEndian 4 (xorIp ^^^ magicCookie), port⟩)
    else if family = 0x02 then
      if attr.length < 20 then some (.error (.protocol [.text "XOR-MAPPED-ADDRESS IPv6 too short"]))
      else do
        let tail ← copyFromSlice 12 txId
        let octets ← slice attr 4 20
        some (.ok ⟨unmask (toBigEndian 4 magicCookie ++ tail) octets, port⟩)
    else some (.error (.protocol [.text "unknown address family: ", .nat family.toNat]))

def parseMapped (attr : Bytes) : Option (Except Error SocketAddr) :=
  if attr.length < 8 then some (.error (.protocol [.text "MAPPED-ADDRESS too short"]))
  else do
    let family ← attr[1]?
    let port ← readBigEndian 2 attr 2
    if family = 0x01 then do
      let ip ← slice attr 4 8
      some (.ok ⟨ip, port⟩)
    else if family = 0x02 then
      if attr.length < 20 then some (.error (.protocol [.text "MAPPED-ADDRESS IPv6 too short"]))
      else do
        let octets ← slice attr 4 20
        some (.ok ⟨octets, port⟩)
    else some (.error (.protocol [.text "unknown address family: ", .nat family.toNat]))

/-- An attribute of another type, or one that does not parse, is passed over. -/
def readAttribute (attrType : Nat) (attr txId : Bytes) : Option (Option SocketAddr) :=
  if attrType = attrXorMappedAddress then (parseXorMapped attr txId).map Except.toOption
  else if attrType = attrMappedAddress then (parseMapped attr).map Except.toOption
  else some none

/-! ## Responses -/

def noMappedAddress : Error := .protocol [.text "no mapped-address attribute in STUN response"]

/-- The loop over the attributes from `offset` on; `stop` is the end of the message. -/
def scanAttributes (data txId : Bytes) (stop offset : Nat) : Option (Except Error SocketAddr) :=
  if offset + 4 ≤ stop then do
    let attrType ← readBigEndian 2 data offset
    let attrLen ← readBigEndian 2 data (offset + 2)
    if stop < offset + 4 + attrLen then some (.error noMappedAddress)
    else do
      let attr ← slice data (offset + 4) (offset + 4 + attrLen)
      match ← readAttribute attrType attr txId with
      | some addr => some (.ok addr)
      | none => scanAttributes data txId stop (offset + 4 + (attrLen + 3) / 4 * 4)
  else some (.error noMappedAddress)
termination_by stop - offset

def parseBindingResponse (data : Bytes) : Option (Except Error SocketAddr) :=
  if data.length < 20 then some (.error (.protocol [.text "STUN response too short"]))
  else do
    let msgType ← readBigEndian 2 data 0
    if msgType ≠ bindingResponse then
      some (.error (.protocol [.text "unexpected STUN message type: 0x", .nat msgType]))
    else do
      let msgLen ← readBigEndian 2 data 2
      let cookie ← readBigEndian 4 data 4
      if cookie ≠ magicCookie then
        some (.error (.protocol [.text "invalid STUN magic cookie"]))
      else do
        let txId ← slice data 8 20
        scanAttributes data txId (min (20 + msgLen) data.length) 20

/-! ## Queries -/

/-- What the socket returns before the deadline. -/
inductive Reception where
  | datagram (source : SocketAddr) (bytes : Bytes)
  | failed (detail : Text)
  deriving DecidableEq, Repr

/-- `recv_from`: what does not fit the buffer is dropped, and what it held before stays after
the received bytes. -/
def recvFrom (buf bytes : Bytes) : Nat × Bytes :=
  (min bytes.length buf.length,
    bytes.take (min bytes.length buf.length) ++ buf.drop (min bytes.length buf.length))

/-- The loop of a query; without another reception the deadline passes. -/
def queryLoop (server : SocketAddr) (expectedTx : TransactionId) :
    Bytes → List Reception → Option (Except Error SocketAddr)
  | _, [] => some (.error .timeout)
  | _, .failed detail :: _ => some (.error (.network detail))
  | buf, .datagram source bytes :: rest =>
      let (len, next) := recvFrom buf bytes
      (slice next 0 len).bind fun data =>
        if source ≠ server ∨ data.length < 20 then queryLoop server expectedTx next rest
        else (slice data 8 20).bind fun txId =>
          if txId ≠ expectedTx.val then queryLoop server expectedTx next rest
          else parseBindingResponse data

def query (server : SocketAddr) (random : TransactionId) (sendFailure : Option Text)
    (receptions : List Reception) : Option (Except Error SocketAddr) :=
  match sendFailure with
  | some detail => some (.error (.network detail))
  | none =>
      queryLoop server (buildBindingRequest random).2 (List.replicate 1024 0) receptions

end P2PFileTransfer.Session.Stun
