import P2PFileTransfer.Session.Stun

/-!
# What a binding response says

A response is a header and a list of attributes, each padded to four bytes.  The parser returns
the address of the first attribute that holds one, looks at no byte after the declared length,
and never indexes out of range.
-/

namespace P2PFileTransfer.Session.StunParsing

open P2PFileTransfer.Foundation.ByteFile
open P2PFileTransfer.Foundation.FixedWidth
open P2PFileTransfer.Foundation.Slices
open P2PFileTransfer.Core.Protocol
open P2PFileTransfer.Session.Rendezvous (SocketAddr)
open P2PFileTransfer.Session.Stun

/-- The padding of a value to a multiple of four bytes. -/
def paddedLength (length : Nat) : Nat := (length + 3) / 4 * 4

structure Attribute where
  kind : UInt16
  value : Bytes
  padding : Bytes
  fits : value.length < 2 ^ 16
  padded : value.length + padding.length = paddedLength value.length

def Attribute.encode (attr : Attribute) : Bytes :=
  toBigEndian 2 attr.kind.toNat ++ (toBigEndian 2 attr.value.length ++ (attr.value ++ attr.padding))

def encodeAll (attributes : List Attribute) : Bytes := attributes.flatMap Attribute.encode

structure Response where
  transactionId : TransactionId
  attributes : List Attribute
  fits : (encodeAll attributes).length < 2 ^ 16

def Response.encode (response : Response) : Bytes :=
  toBigEndian 2 bindingResponse ++ (toBigEndian 2 (encodeAll response.attributes).length ++
    (toBigEndian 4 magicCookie ++ (response.transactionId.val ++ encodeAll response.attributes)))

/-- Family, port and address, the last two masked with a key: four bytes for IPv4, sixteen for
IPv6. -/
def maskedAddress (key : Bytes) : Bytes → Option SocketAddr
  | _ :: family :: high :: low :: ip =>
      if family = 0x01 ∧ 4 ≤ ip.length then
        some ⟨unmask key (ip.take 4), fromBigEndian (unmask key [high, low])⟩
      else if family = 0x02 ∧ 16 ≤ ip.length then
        some ⟨unmask key (ip.take 16), fromBigEndian (unmask key [high, low])⟩
      else none
  | _ => none

/-- The cookie and the transaction id. -/
def xorKey (txId : Bytes) : Bytes := toBigEndian 4 magicCookie ++ txId

/-- The address in a well-formed attribute of one of the two types. -/
def mappedAddress (txId : Bytes) (kind : Nat) (value : Bytes) : Option SocketAddr :=
  if kind = attrXorMappedAddress then maskedAddress (xorKey txId) value
  else if kind = attrMappedAddress then maskedAddress (List.replicate 16 0) value
  else none

def Attribute.address? (txId : Bytes) (attr : Attribute) : Option SocketAddr :=
  mappedAddress txId attr.kind.toNat attr.value

/-- An address, or the error that there is none. -/
def reported : Option SocketAddr → Except Error SocketAddr
  | some address => .ok address
  | none => .error noMappedAddress

/-- The length in the header of a message. -/
def declaredLength (data : Bytes) : Nat := (readBigEndian 2 data 2).getD 0

variable {data txId value : Bytes} {stop offset later kind len : Nat} {address : SocketAddr}

/-! ## One attribute -/

theorem slice_ip (first family high low : UInt8) {ip : Bytes} {count : Nat}
    (hcount : count ≤ ip.length) :
    slice (first :: family :: high :: low :: ip) 4 (4 + count) = some (ip.take count) := by
  rw [slice_eq_some (Nat.le_add_right 4 count) (by simp; omega), Nat.add_sub_cancel_left]
  rfl

theorem readBigEndian_port (first family high low : UInt8) (ip : Bytes) :
    readBigEndian 2 (first :: family :: high :: low :: ip) 2 = some (fromBigEndian [high, low]) := by
  have hslice : slice ([first, family] ++ ([high, low] ++ ip)) 2 4 = some [high, low] :=
    slice_append rfl rfl
  exact congrArg (Option.map fromBigEndian) hslice

/-- The cookie masks the port with its upper half. -/
theorem unmask_port (txId : Bytes) (high low : UInt8) :
    fromBigEndian (unmask (xorKey txId) [high, low]) =
      fromBigEndian [high, low] ^^^ truncate 16 (magicCookie >>> 16) := by
  have hkey : unmask (xorKey txId) [high, low] = unmask [0x21, 0x12] [high, low] := rfl
  have hparts := @fromBigEndian_unmask [high, low] [0x21, 0x12] rfl
  rw [hkey, hparts]
  rfl

theorem unmask_ipv4 (txId : Bytes) {ip : Bytes} (hlength : 4 ≤ ip.length) :
    toBigEndian 4 (fromBigEndian (ip.take 4) ^^^ magicCookie) =
      unmask (xorKey txId) (ip.take 4) := by
  have htake : (ip.take 4).length = 4 := by simpa using hlength
  have hcookie : fromBigEndian (toBigEndian 4 magicCookie) = magicCookie :=
    fromBigEndian_toBigEndian (by decide)
  rw [xorKey, unmask_append (by rw [htake, length_toBigEndian])]
  have hxor := toBigEndian_xor
    (htake.trans (length_toBigEndian 4 magicCookie).symm) htake
  rw [hcookie] at hxor
  exact hxor

/-- Too short an attribute holds no address. -/
theorem maskedAddress_of_short (key : Bytes) (hshort : value.length < 8) :
    maskedAddress key value = none := by
  match value with
  | [] | [_] | [_, _] | [_, _, _] => rfl
  | _ :: _ :: _ :: _ :: ip =>
      simp only [List.length_cons] at hshort
      rw [maskedAddress, if_neg (by omega), if_neg (by omega)]

/-- The four bytes in front of an address. -/
theorem exists_header_of_long (hlong : ¬ value.length < 8) :
    ∃ first family high low ip, value = first :: family :: high :: low :: ip ∧ 4 ≤ ip.length := by
  match value with
  | [] | [_] | [_, _] | [_, _, _] => exact absurd (by simp) hlong
  | first :: family :: high :: low :: ip =>
      simp only [List.length_cons] at hlong
      exact ⟨first, family, high, low, ip, rfl, by omega⟩

theorem parseXorMapped_eq (htx : txId.length = 12) (value : Bytes) :
    (parseXorMapped value txId).map Except.toOption = some (maskedAddress (xorKey txId) value) := by
  by_cases hshort : value.length < 8
  · rw [parseXorMapped, if_pos hshort, maskedAddress_of_short _ hshort]
    rfl
  · obtain ⟨first, family, high, low, ip, rfl, hfour⟩ := exists_header_of_long hshort
    have hip : readBigEndian 4 (first :: family :: high :: low :: ip) 4 =
        some (fromBigEndian (ip.take 4)) :=
      congrArg (Option.map fromBigEndian) (slice_ip first family high low hfour)
    have hcopy : copyFromSlice 12 txId = some txId := if_pos htx
    rw [parseXorMapped, if_neg hshort, readBigEndian_port, hip, maskedAddress, unmask_port]
    simp only [List.getElem?_cons_succ, List.getElem?_cons_zero, Option.bind_eq_bind,
      Option.bind_some, hcopy, hfour, and_true]
    by_cases hv4 : family = 0x01
    · rw [if_pos hv4, if_pos hv4, unmask_ipv4 txId hfour]
      rfl
    · rw [if_neg hv4, if_neg hv4]
      by_cases hv6 : family = 0x02
      · rw [if_pos hv6]
        by_cases hsixteen : 16 ≤ ip.length
        · rw [if_neg (by simp; omega), if_pos ⟨hv6, hsixteen⟩,
            slice_ip first family high low hsixteen]
          rfl
        · rw [if_pos (by simp; omega), if_neg fun hboth => hsixteen hboth.2]
          rfl
      · rw [if_neg hv6, if_neg fun hboth => hv6 hboth.1]
        rfl

theorem parseMapped_eq (value : Bytes) :
    (parseMapped value).map Except.toOption =
      some (maskedAddress (List.replicate 16 0) value) := by
  by_cases hshort : value.length < 8
  · rw [parseMapped, if_pos hshort, maskedAddress_of_short _ hshort]
    rfl
  · obtain ⟨first, family, high, low, ip, rfl, hfour⟩ := exists_header_of_long hshort
    rw [parseMapped, if_neg hshort, readBigEndian_port, slice_ip first family high low hfour,
      maskedAddress, unmask_zeros (by simp), unmask_zeros (by simp), unmask_zeros (by simp)]
    simp only [List.getElem?_cons_succ, List.getElem?_cons_zero, Option.bind_eq_bind,
      Option.bind_some, hfour, and_true]
    by_cases hv4 : family = 0x01
    · rw [if_pos hv4, if_pos hv4]
      rfl
    · rw [if_neg hv4, if_neg hv4]
      by_cases hv6 : family = 0x02
      · rw [if_pos hv6]
        by_cases hsixteen : 16 ≤ ip.length
        · rw [if_neg (by simp; omega), if_pos ⟨hv6, hsixteen⟩,
            slice_ip first family high low hsixteen]
          rfl
        · rw [if_pos (by simp; omega), if_neg fun hboth => hsixteen hboth.2]
          rfl
      · rw [if_neg hv6, if_neg fun hboth => hv6 hboth.1]
        rfl

theorem readAttribute_eq (htx : txId.length = 12) (kind : Nat) (value : Bytes) :
    readAttribute kind value txId = some (mappedAddress txId kind value) := by
  unfold readAttribute mappedAddress
  by_cases hxor : kind = attrXorMappedAddress
  · rw [if_pos hxor, if_pos hxor, parseXorMapped_eq htx]
  · rw [if_neg hxor, if_neg hxor]
    by_cases hplain : kind = attrMappedAddress
    · rw [if_pos hplain, if_pos hplain, parseMapped_eq]
    · rw [if_neg hplain, if_neg hplain]

/-! ## The loop over the attributes -/

theorem scanAttributes_of_end (hend : ¬ offset + 4 ≤ stop) :
    scanAttributes data txId stop offset = some (reported none) := by
  rw [scanAttributes, if_neg hend]
  rfl

/-- An attribute that ends after the message. -/
theorem scanAttributes_of_cut (hmore : offset + 4 ≤ stop)
    (hkind : readBigEndian 2 data offset = some kind)
    (hlen : readBigEndian 2 data (offset + 2) = some len) (hcut : stop < offset + 4 + len) :
    scanAttributes data txId stop offset = some (reported none) := by
  rw [scanAttributes, if_pos hmore, hkind, hlen]
  exact if_pos hcut

/-- An attribute that can be read. -/
theorem scanAttributes_of_attribute (htx : txId.length = 12) (hmore : offset + 4 ≤ stop)
    (hkind : readBigEndian 2 data offset = some kind)
    (hlen : readBigEndian 2 data (offset + 2) = some len) (hinside : offset + 4 + len ≤ stop)
    (hvalue : slice data (offset + 4) (offset + 4 + len) = some value) :
    scanAttributes data txId stop offset =
      match mappedAddress txId kind value with
      | some address => some (.ok address)
      | none => scanAttributes data txId stop (offset + 4 + paddedLength len) := by
  rw [scanAttributes, if_pos hmore, hkind, hlen]
  simp only [Option.bind_eq_bind, Option.bind_some]
  rw [if_neg (Nat.not_lt.mpr hinside), hvalue]
  simp only [Option.bind_some]
  rw [readAttribute_eq htx]
  simp only [Option.bind_some]
  cases mappedAddress txId kind value <;> rfl

/-- Where the loop can stand: at the end, before an attribute that is cut off, or before one
that can be read. -/
inductive Standing (data : Bytes) (stop offset : Nat) : Prop where
  | atEnd (hend : ¬ offset + 4 ≤ stop)
  | cut (kind len : Nat) (hmore : offset + 4 ≤ stop)
      (hkind : readBigEndian 2 data offset = some kind)
      (hlen : readBigEndian 2 data (offset + 2) = some len) (hcut : stop < offset + 4 + len)
  | before (kind len : Nat) (value : Bytes) (hmore : offset + 4 ≤ stop)
      (hkind : readBigEndian 2 data offset = some kind)
      (hlen : readBigEndian 2 data (offset + 2) = some len) (hinside : offset + 4 + len ≤ stop)
      (hvalue : slice data (offset + 4) (offset + 4 + len) = some value)

theorem standing (hstop : stop ≤ data.length) (offset : Nat) : Standing data stop offset := by
  by_cases hmore : offset + 4 ≤ stop
  · obtain ⟨kind, hkind⟩ : ∃ kind, readBigEndian 2 data offset = some kind :=
      readBigEndian_eq_some (by omega)
    obtain ⟨len, hlen⟩ : ∃ len, readBigEndian 2 data (offset + 2) = some len :=
      readBigEndian_eq_some (by omega)
    rcases Nat.lt_or_ge stop (offset + 4 + len) with hcut | hinside
    · exact .cut kind len hmore hkind hlen hcut
    · exact .before kind len _ hmore hkind hlen hinside
        (slice_eq_some (Nat.le_add_right _ _) (by omega))
  · exact .atEnd hmore

/-- The loop never indexes out of range. -/
theorem isSome_scanAttributes (htx : txId.length = 12) (hstop : stop ≤ data.length)
    (offset : Nat) : (scanAttributes data txId stop offset).isSome = true := by
  induction hleft : stop - offset using Nat.strongRecOn generalizing offset with
  | _ left ih =>
      cases standing hstop offset with
      | atEnd hend => rw [scanAttributes_of_end hend, Option.isSome_some]
      | cut kind len hmore hkind hlen hcut =>
          rw [scanAttributes_of_cut hmore hkind hlen hcut, Option.isSome_some]
      | before kind len value hmore hkind hlen hinside hvalue =>
          rw [scanAttributes_of_attribute htx hmore hkind hlen hinside hvalue]
          cases mappedAddress txId kind value with
          | some address => rfl
          | none => exact ih _ (by omega) (offset + 4 + paddedLength len) rfl

/-- The loop does not look beyond its end. -/
theorem scanAttributes_take (htx : txId.length = 12) {bound : Nat} (hbound : stop ≤ bound)
    (hstop : stop ≤ data.length) (offset : Nat) :
    scanAttributes (data.take bound) txId stop offset = scanAttributes data txId stop offset := by
  induction hleft : stop - offset using Nat.strongRecOn generalizing offset with
  | _ left ih =>
      cases standing hstop offset with
      | atEnd hend => rw [scanAttributes_of_end hend, scanAttributes_of_end hend]
      | cut kind len hmore hkind hlen hcut =>
          rw [scanAttributes_of_cut hmore hkind hlen hcut]
          have htaken : readBigEndian 2 (data.take bound) offset = some kind := by
            rw [readBigEndian_take (by omega), hkind]
          apply scanAttributes_of_cut hmore htaken _ hcut
          rw [readBigEndian_take (by omega), hlen]
      | before kind len value hmore hkind hlen hinside hvalue =>
          rw [scanAttributes_of_attribute htx hmore hkind hlen hinside hvalue,
            ← ih _ (by omega) (offset + 4 + paddedLength len) rfl]
          apply scanAttributes_of_attribute htx hmore _ _ hinside
          · rw [slice_take (by omega), hvalue]
          · rw [readBigEndian_take (by omega), hkind]
          · rw [readBigEndian_take (by omega), hlen]

/-- An address that was found is found as well when the message goes on. -/
theorem scanAttributes_mono (htx : txId.length = 12) (hstop : stop ≤ data.length)
    (hlater : stop ≤ later) (hfound : scanAttributes data txId stop offset = some (.ok address)) :
    scanAttributes data txId later offset = some (.ok address) := by
  induction hleft : stop - offset using Nat.strongRecOn generalizing offset with
  | _ left ih =>
      cases standing hstop offset with
      | atEnd hend =>
          rw [scanAttributes_of_end hend] at hfound
          cases hfound
      | cut kind len hmore hkind hlen hcut =>
          rw [scanAttributes_of_cut hmore hkind hlen hcut] at hfound
          cases hfound
      | before kind len value hmore hkind hlen hinside hvalue =>
          rw [scanAttributes_of_attribute htx hmore hkind hlen hinside hvalue] at hfound
          rw [scanAttributes_of_attribute htx (by omega) hkind hlen (by omega) hvalue]
          cases haddress : mappedAddress txId kind value with
          | some other =>
              rw [haddress] at hfound
              exact hfound
          | none =>
              rw [haddress] at hfound
              exact ih _ (by omega) hfound rfl

theorem length_encode (attr : Attribute) :
    attr.encode.length = 4 + paddedLength attr.value.length := by
  have hpadded := attr.padded
  simp only [Attribute.encode, List.length_append, length_toBigEndian]
  omega

/-- On an encoded list the loop returns the first address of the list. -/
theorem scanAttributes_encodeAll (htx : txId.length = 12) (attributes : List Attribute)
    (front : Bytes) :
    scanAttributes (front ++ encodeAll attributes) txId
        (front.length + (encodeAll attributes).length) front.length =
      some (reported (attributes.findSome? (Attribute.address? txId))) := by
  induction attributes generalizing front with
  | nil => exact scanAttributes_of_end (by simp [encodeAll])
  | cons attr rest ih =>
      have hall : encodeAll (attr :: rest) = attr.encode ++ encodeAll rest := List.flatMap_cons
      have hlength := length_encode attr
      have hpadded := attr.padded
      have htotal : (encodeAll (attr :: rest)).length =
          4 + paddedLength attr.value.length + (encodeAll rest).length := by
        rw [hall, List.length_append, hlength]
      have hdata : front ++ encodeAll (attr :: rest) = front ++ (toBigEndian 2 attr.kind.toNat ++
          (toBigEndian 2 attr.value.length ++ (attr.value ++ (attr.padding ++ encodeAll rest)))) := by
        rw [hall, Attribute.encode]
        simp only [List.append_assoc]
      have hkind : readBigEndian 2 (front ++ encodeAll (attr :: rest)) front.length =
          some attr.kind.toNat := by
        rw [hdata]
        exact readBigEndian_append rfl attr.kind.toNat_lt
      have hlen : readBigEndian 2 (front ++ encodeAll (attr :: rest)) (front.length + 2) =
          some attr.value.length := by
        rw [hdata, ← List.append_assoc]
        exact readBigEndian_append (by simp) attr.fits
      have hvalue : slice (front ++ encodeAll (attr :: rest)) (front.length + 4)
          (front.length + 4 + attr.value.length) = some attr.value := by
        rw [hdata, ← List.append_assoc, ← List.append_assoc]
        exact slice_append (by simp) (by simp)
      rw [scanAttributes_of_attribute htx (by omega) hkind hlen (by omega) hvalue,
        List.findSome?_cons]
      change (match attr.address? txId with | some address => _ | none => _) = _
      cases attr.address? txId with
      | some address => rfl
      | none =>
          have hnext := ih (front ++ attr.encode)
          rw [List.length_append, hlength, List.append_assoc, ← hall] at hnext
          dsimp only
          rw [← hnext, htotal]
          congr 1 <;> omega

/-! ## Whole messages -/

/-- The parser from the fields of the header on. -/
theorem parse_of_header {msgType msgLen cookie : Nat} (hlength : 20 ≤ data.length)
    (htype : readBigEndian 2 data 0 = some msgType) (hlen : readBigEndian 2 data 2 = some msgLen)
    (hcookie : readBigEndian 4 data 4 = some cookie) (htx : slice data 8 20 = some txId) :
    parseBindingResponse data =
      if msgType ≠ bindingResponse then
        some (.error (.protocol [.text "unexpected STUN message type: 0x", .nat msgType]))
      else if cookie ≠ magicCookie then
        some (.error (.protocol [.text "invalid STUN magic cookie"]))
      else scanAttributes data txId (min (20 + msgLen) data.length) 20 := by
  rw [parseBindingResponse, if_neg (Nat.not_lt.mpr hlength), htype, hlen, hcookie, htx]
  rfl

theorem exists_header (hlength : 20 ≤ data.length) : ∃ msgType msgLen cookie txId,
    readBigEndian 2 data 0 = some msgType ∧ readBigEndian 2 data 2 = some msgLen ∧
      readBigEndian 4 data 4 = some cookie ∧ slice data 8 20 = some txId ∧ txId.length = 12 := by
  obtain ⟨msgType, htype⟩ : ∃ msgType, readBigEndian 2 data 0 = some msgType :=
    readBigEndian_eq_some (by omega)
  obtain ⟨msgLen, hlen⟩ : ∃ msgLen, readBigEndian 2 data 2 = some msgLen :=
    readBigEndian_eq_some (by omega)
  obtain ⟨cookie, hcookie⟩ : ∃ cookie, readBigEndian 4 data 4 = some cookie :=
    readBigEndian_eq_some (by omega)
  have htx : slice data 8 20 = some ((data.drop 8).take (20 - 8)) :=
    slice_eq_some (by omega) (by omega)
  exact ⟨msgType, msgLen, cookie, _, htype, hlen, hcookie, htx, length_of_slice htx⟩

theorem parse_of_short (hshort : data.length < 20) :
    parseBindingResponse data =
      some (.error (.protocol [.text "STUN response too short"])) := if_pos hshort

theorem isSome_parse (data : Bytes) : (parseBindingResponse data).isSome = true := by
  rcases Nat.lt_or_ge data.length 20 with hshort | hlength
  · rw [parse_of_short hshort, Option.isSome_some]
  · obtain ⟨msgType, msgLen, cookie, txId, htype, hlen, hcookie, htx, htwelve⟩ :=
      exists_header hlength
    rw [parse_of_header hlength htype hlen hcookie htx]
    split
    · rfl
    · split
      · rfl
      · exact isSome_scanAttributes htwelve (Nat.min_le_right _ _) 20

/-- A message that is cut after its header. -/
theorem parse_take {bound msgType msgLen cookie : Nat} (hbound : 20 ≤ bound)
    (hlength : 20 ≤ data.length) (htype : readBigEndian 2 data 0 = some msgType)
    (hlen : readBigEndian 2 data 2 = some msgLen) (hcookie : readBigEndian 4 data 4 = some cookie)
    (htx : slice data 8 20 = some txId) :
    parseBindingResponse (data.take bound) =
      if msgType ≠ bindingResponse then
        some (.error (.protocol [.text "unexpected STUN message type: 0x", .nat msgType]))
      else if cookie ≠ magicCookie then
        some (.error (.protocol [.text "invalid STUN magic cookie"]))
      else scanAttributes data txId (min (20 + msgLen) (min bound data.length)) 20 := by
  have htaken : (data.take bound).length = min bound data.length := List.length_take
  have hsameType : readBigEndian 2 (data.take bound) 0 = some msgType := by
    rw [readBigEndian_take (by omega), htype]
  have hsameLen : readBigEndian 2 (data.take bound) 2 = some msgLen := by
    rw [readBigEndian_take (by omega), hlen]
  have hsameCookie : readBigEndian 4 (data.take bound) 4 = some cookie := by
    rw [readBigEndian_take (by omega), hcookie]
  have hsameTx : slice (data.take bound) 8 20 = some txId := by
    rw [slice_take (by omega), htx]
  rw [parse_of_header (by rw [htaken]; omega) hsameType hsameLen hsameCookie hsameTx, htaken,
    scanAttributes_take (length_of_slice htx) (by omega) (by omega)]

/-- What comes after the declared length is not read. -/
theorem parse_declared (data : Bytes) :
    parseBindingResponse (data.take (20 + declaredLength data)) = parseBindingResponse data := by
  rcases Nat.lt_or_ge data.length 20 with hshort | hlength
  · rw [List.take_of_length_le (by omega)]
  · obtain ⟨msgType, msgLen, cookie, txId, htype, hlen, hcookie, htx, _⟩ := exists_header hlength
    have hdeclared : declaredLength data = msgLen := by rw [declaredLength, hlen, Option.getD_some]
    rw [parse_take (Nat.le_add_right _ _) hlength htype hlen hcookie htx,
      parse_of_header hlength htype hlen hcookie htx, hdeclared, ← Nat.min_assoc, Nat.min_self]

/-- An address in a message that was cut off is the address of the whole message. -/
theorem parse_of_take {bound : Nat}
    (hfound : parseBindingResponse (data.take bound) = some (.ok address)) :
    parseBindingResponse data = some (.ok address) := by
  rcases Nat.lt_or_ge (data.take bound).length 20 with hshort | hlong
  · rw [parse_of_short hshort] at hfound
    cases hfound
  · rw [List.length_take] at hlong
    obtain ⟨msgType, msgLen, cookie, txId, htype, hlen, hcookie, htx, htwelve⟩ :=
      @exists_header data (by omega)
    rw [parse_take (by omega) (by omega) htype hlen hcookie htx] at hfound
    rw [parse_of_header (by omega) htype hlen hcookie htx]
    by_cases hmsgType : msgType ≠ bindingResponse
    · rw [if_pos hmsgType] at hfound
      cases hfound
    · rw [if_neg hmsgType] at hfound ⊢
      by_cases hmagic : cookie ≠ magicCookie
      · rw [if_pos hmagic] at hfound
        cases hfound
      · rw [if_neg hmagic] at hfound ⊢
        refine scanAttributes_mono htwelve ?_ ?_ hfound
        · omega
        · omega

theorem parse_encode (response : Response) :
    parseBindingResponse response.encode =
      some (reported (response.attributes.findSome?
        (Attribute.address? response.transactionId.val))) := by
  have htwelve := response.transactionId.property
  have hheader : response.encode = (toBigEndian 2 bindingResponse ++
      (toBigEndian 2 (encodeAll response.attributes).length ++
        (toBigEndian 4 magicCookie ++ response.transactionId.val))) ++
          encodeAll response.attributes := by
    simp only [Response.encode, List.append_assoc]
  have hlength : response.encode.length = 20 + (encodeAll response.attributes).length := by
    simp only [Response.encode, List.length_append, length_toBigEndian, htwelve]
    omega
  have htype : readBigEndian 2 response.encode 0 = some bindingResponse :=
    readBigEndian_append List.length_nil.symm (by decide)
  have hlen : readBigEndian 2 response.encode 2 = some (encodeAll response.attributes).length :=
    readBigEndian_append (length_toBigEndian _ _).symm response.fits
  have hcookie : readBigEndian 4 response.encode 4 = some magicCookie := by
    rw [Response.encode, ← List.append_assoc]
    exact readBigEndian_append (by simp) (by decide)
  have htx : slice response.encode 8 20 = some response.transactionId.val := by
    rw [Response.encode, ← List.append_assoc, ← List.append_assoc]
    exact slice_append (by simp) (by simp [htwelve])
  rw [parse_of_header (by omega) htype hlen hcookie htx, if_neg (not_not.mpr rfl),
    if_neg (not_not.mpr rfl), hlength, Nat.min_self, hheader]
  have hscan := scanAttributes_encodeAll htwelve response.attributes (toBigEndian 2 bindingResponse ++
    (toBigEndian 2 (encodeAll response.attributes).length ++
      (toBigEndian 4 magicCookie ++ response.transactionId.val)))
  have htwenty : (toBigEndian 2 bindingResponse ++
      (toBigEndian 2 (encodeAll response.attributes).length ++
        (toBigEndian 4 magicCookie ++ response.transactionId.val))).length = 20 := by
    simp only [List.length_append, length_toBigEndian, htwelve]
  rw [htwenty] at hscan
  exact hscan

/-- Every message is parsed without an access out of range, an encoded response to the first
address among its attributes, and no message by what follows its declared length. -/
theorem stun_parsed_exactly :
    (∀ data, (parseBindingResponse data).isSome = true) ∧
    (∀ response : Response, parseBindingResponse response.encode =
      some (reported (response.attributes.findSome?
        (Attribute.address? response.transactionId.val)))) ∧
    ∀ data, parseBindingResponse (data.take (20 + declaredLength data)) =
      parseBindingResponse data :=
  ⟨isSome_parse, parse_encode, parse_declared⟩

end P2PFileTransfer.Session.StunParsing
