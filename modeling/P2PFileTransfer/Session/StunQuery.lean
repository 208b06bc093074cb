import P2PFileTransfer.Session.StunParsing

/-!
# What a STUN query listens to

A query passes over every datagram that is not from its server, is shorter than a header, or
carries another transaction id.  What it returns is decided by the first datagram that is left,
although the buffer still holds bytes of those before.
-/

namespace P2PFileTransfer.Session.StunQuery

open P2PFileTransfer.Foundation.ByteFile
open P2PFileTransfer.Foundation.Slices
open P2PFileTransfer.Core.Protocol
open P2PFileTransfer.Foundation.FixedWidth (toBigEndian length_toBigEndian)
open P2PFileTransfer.Session.Rendezvous (SocketAddr)
open P2PFileTransfer.Session.Stun
open P2PFileTransfer.Session.StunParsing

/-- A datagram that reaches the socket before the deadline. -/
structure Delivery where
  source : SocketAddr
  bytes : Bytes
  deriving DecidableEq, Repr

/-- From the server, at least a header, and with the transaction id of the request. -/
def answers (server : SocketAddr) (random : TransactionId) (delivery : Delivery) : Bool :=
  decide (delivery.source = server ∧ 20 ≤ delivery.bytes.length ∧
    slice delivery.bytes 8 20 = slice (buildBindingRequest random).1 8 20)

/-- The result of a query whose request could be sent. -/
def received (server : SocketAddr) (random : TransactionId) (deliveries : List Delivery) :
    Option (Except Error SocketAddr) :=
  query server random none
    (deliveries.map fun delivery => .datagram delivery.source delivery.bytes)

variable {server : SocketAddr} {random : TransactionId} {buf bytes : Bytes}
  {delivery : Delivery} {deliveries others : List Delivery} {address : SocketAddr}

theorem slice_request (random : TransactionId) :
    slice (buildBindingRequest random).1 8 20 = some random.val := by
  have hrequest : (buildBindingRequest random).1 = (toBigEndian 2 bindingRequest ++
      (toBigEndian 2 0 ++ toBigEndian 4 magicCookie)) ++ (random.val ++ []) := by
    simp only [buildBindingRequest, List.append_assoc, List.append_nil]
  rw [hrequest]
  exact slice_append rfl (by simp [random.property])

/-! ## The buffer -/

/-- A datagram is cut to the buffer, and nothing of the ones before is returned with it. -/
theorem slice_recvFrom (buf bytes : Bytes) :
    slice (recvFrom buf bytes).2 0 (recvFrom buf bytes).1 = some (bytes.take buf.length) := by
  have hmin : (bytes.take (min bytes.length buf.length)).length = min bytes.length buf.length := by
    rw [List.length_take]
    omega
  have htake : bytes.take (min bytes.length buf.length) = bytes.take buf.length := by
    rcases Nat.le_total bytes.length buf.length with hle | hge
    · rw [Nat.min_eq_left hle, List.take_length, List.take_of_length_le hle]
    · rw [Nat.min_eq_right hge]
  have hslice : slice ([] ++ (bytes.take (min bytes.length buf.length) ++
      buf.drop (min bytes.length buf.length))) 0 (min bytes.length buf.length) =
        some (bytes.take (min bytes.length buf.length)) :=
    slice_append rfl (by rw [hmin, List.length_nil, Nat.zero_add])
  exact hslice.trans (congrArg some htake)

theorem length_recvFrom (buf bytes : Bytes) : (recvFrom buf bytes).2.length = buf.length := by
  simp only [recvFrom, List.length_append, List.length_take, List.length_drop]
  omega

/-! ## The loop -/

/-- One turn with a datagram: it is passed over, or decides the query. -/
theorem queryLoop_datagram (hbuf : 20 ≤ buf.length) (delivery : Delivery)
    (rest : List Reception) :
    queryLoop server random buf (.datagram delivery.source delivery.bytes :: rest) =
      if answers server random delivery then
        parseBindingResponse (delivery.bytes.take buf.length)
      else queryLoop server random (recvFrom buf delivery.bytes).2 rest := by
  have hlength : (delivery.bytes.take buf.length).length < 20 ↔ delivery.bytes.length < 20 := by
    rw [List.length_take]
    omega
  rw [queryLoop]
  dsimp only
  rw [slice_recvFrom, Option.bind_some]
  unfold answers
  rw [slice_request]
  by_cases hforeign : delivery.source ≠ server ∨ delivery.bytes.length < 20
  · rw [if_pos (hforeign.imp_right hlength.mpr), if_neg]
    intro hanswers
    obtain ⟨hsource, hlong, _⟩ := of_decide_eq_true hanswers
    exact hforeign.elim (fun hne => hne hsource) (Nat.not_lt.mpr hlong)
  · obtain ⟨hsource, hlong⟩ := not_or.mp hforeign
    rw [if_neg (fun hor => hforeign (hor.imp_right hlength.mp)), slice_take hbuf]
    have hslice : slice delivery.bytes 8 20 = some ((delivery.bytes.drop 8).take (20 - 8)) :=
      slice_eq_some (by omega) (by omega)
    rw [hslice, Option.bind_some]
    by_cases htx : (delivery.bytes.drop 8).take (20 - 8) = random.val
    · rw [if_neg (not_not.mpr htx), htx, if_pos]
      exact decide_eq_true ⟨not_not.mp hsource, Nat.not_lt.mp hlong, rfl⟩
    · rw [if_pos htx, if_neg]
      intro hanswers
      exact htx (Option.some.inj (of_decide_eq_true hanswers).2.2)

/-- The first datagram that answers decides the query. -/
theorem queryLoop_eq (hbuf : 20 ≤ buf.length) (deliveries : List Delivery) :
    queryLoop server random buf
        (deliveries.map fun delivery => .datagram delivery.source delivery.bytes) =
      match deliveries.find? (answers server random) with
      | some delivery => parseBindingResponse (delivery.bytes.take buf.length)
      | none => some (.error .timeout) := by
  induction deliveries generalizing buf with
  | nil => rfl
  | cons delivery rest ih =>
      rw [List.map_cons, queryLoop_datagram hbuf]
      cases hanswers : answers server random delivery with
      | true => rw [if_pos rfl, List.find?_cons_of_pos hanswers]
      | false =>
          have hnot : ¬ answers server random delivery = true := Bool.eq_false_iff.mp hanswers
          rw [if_neg Bool.false_ne_true, List.find?_cons_of_neg hnot,
            ih (by rw [length_recvFrom]; exact hbuf), length_recvFrom]

theorem received_eq (deliveries : List Delivery) :
    received server random deliveries =
      match deliveries.find? (answers server random) with
      | some delivery => parseBindingResponse (delivery.bytes.take 1024)
      | none => some (.error .timeout) := by
  have hbuf : (List.replicate 1024 (0 : UInt8)).length = 1024 := List.length_replicate
  have hloop := @queryLoop_eq server random (List.replicate 1024 0) (by rw [hbuf]; decide) deliveries
  rw [hbuf] at hloop
  exact hloop

/-- A query that returns an address has found it in the first datagram that answers. -/
theorem exists_answer_of_ok (hok : received server random deliveries = some (.ok address)) :
    ∃ delivery, deliveries.find? (answers server random) = some delivery ∧
      parseBindingResponse delivery.bytes = some (.ok address) := by
  rw [received_eq] at hok
  cases hfind : deliveries.find? (answers server random) with
  | none =>
      rw [hfind] at hok
      cases hok
  | some delivery =>
      rw [hfind] at hok
      exact ⟨delivery, rfl, parse_of_take hok⟩

/-- Two sequences of datagrams with the same first answer, whatever else is in them, have the
same result, and an address only if that answer holds it. -/
theorem foreign_packets_ignored (server : SocketAddr) (random : TransactionId)
    (hsame : deliveries.find? (answers server random) = others.find? (answers server random)) :
    received server random deliveries = received server random others ∧
      ∀ address, received server random deliveries = some (.ok address) →
        ∃ delivery, deliveries.find? (answers server random) = some delivery ∧
          parseBindingResponse delivery.bytes = some (.ok address) := by
  constructor
  · rw [received_eq, received_eq, hsame]
  · exact fun address => exists_answer_of_ok

/-! ## An answer between other packets -/

def stunServer : SocketAddr := ⟨[192, 0, 2, 1], 3478⟩

def otherPeer : SocketAddr := ⟨[198, 51, 100, 9], 4000⟩

/-- A response to this transaction id, with one masked IPv4 address. -/
def responseTo (random : TransactionId) : Bytes :=
  Response.encode
    { transactionId := random
      attributes := [⟨0x0020, [0, 1, 0x21, 0x13, 0x21, 0x12, 0xA4, 0x43], [], by decide, rfl⟩]
      fits := by simp [encodeAll, Attribute.encode] }

theorem foreign_packets_ignored_between :
    received stunServer (FixedBytes.filled 12 7) [⟨stunServer, responseTo (FixedBytes.filled 12 7)⟩] =
        received stunServer (FixedBytes.filled 12 7)
          [⟨stunServer, responseTo (FixedBytes.filled 12 6)⟩,
            ⟨otherPeer, responseTo (FixedBytes.filled 12 7)⟩,
            ⟨stunServer, responseTo (FixedBytes.filled 12 7)⟩, ⟨stunServer, [1, 1]⟩] ∧
      ∀ address, received stunServer (FixedBytes.filled 12 7)
          [⟨stunServer, responseTo (FixedBytes.filled 12 7)⟩] = some (.ok address) →
        ∃ delivery, [⟨stunServer, responseTo (FixedBytes.filled 12 7)⟩].find?
            (answers stunServer (FixedBytes.filled 12 7)) = some delivery ∧
          parseBindingResponse delivery.bytes = some (.ok address) :=
  foreign_packets_ignored stunServer (FixedBytes.filled 12 7) rfl

end P2PFileTransfer.Session.StunQuery
