import P2PFileTransfer.Core.Framing

/-!
# Frames read back from a cut stream

Whatever the fragments, the reader yields the messages whose frames are complete, and
then tells a cut between two frames from one inside a frame.
-/

namespace P2PFileTransfer.Session.Framing

open P2PFileTransfer.Foundation.ByteFile
open P2PFileTransfer.Foundation.FixedWidth
open P2PFileTransfer.Foundation.Fragments
open P2PFileTransfer.Core.Protocol
open P2PFileTransfer.Core.Framing

variable {codec : MessageCodec} {payload rest : Bytes} {reader : Reader}

/-- The four bytes behind the magic. -/
def lengthField (payload : Bytes) : Bytes := toBigEndian 4 (truncate 32 payload.length)

theorem length_lengthField (payload : Bytes) : (lengthField payload).length = 4 :=
  length_toBigEndian _ _

/-! ## One frame -/

/-- The reader behind the magic. -/
theorem readHeader_frame (hfits : payload.length ≤ maxMessageSize)
    (hbytes : reader.bytes = lengthField payload ++ (payload ++ rest)) :
    ∃ sizes, readHeader codec protocolMagic reader = (codec.decode payload, ⟨rest, sizes⟩) := by
  have hfield := length_lengthField payload
  have hfour : 4 ≤ reader.bytes.length := by
    rw [hbytes, List.length_append]
    omega
  have htake : reader.bytes.take 4 = lengthField payload := by
    rw [hbytes, List.take_left' hfield]
  have hdrop : reader.bytes.drop 4 = payload ++ rest := by
    rw [hbytes, List.drop_left' hfield]
  obtain ⟨sizes, hheader⟩ := @readHeader_ok codec reader hfour
  rw [htake, hdrop, lengthField, fromBigEndian_length hfits] at hheader
  have hinside : payload.length ≤ (Reader.mk (payload ++ rest) sizes).bytes.length := by
    rw [List.length_append]
    exact Nat.le_add_right _ _
  obtain ⟨more, hpayload⟩ := @readPayload_ok codec ⟨payload ++ rest, sizes⟩ payload.length hfits hinside
  refine ⟨more, ?_⟩
  rw [hheader, hpayload, List.take_left, List.drop_left]

/-- Behind the magic, but not all of the frame is there. -/
theorem readHeader_cut {cut : Nat} (hfits : payload.length ≤ maxMessageSize)
    (hbytes : reader.bytes = (lengthField payload ++ payload).take cut)
    (hcut : cut < 4 + payload.length) :
    ∃ detail, (readHeader codec protocolMagic reader).1 = .error (.protocol detail) := by
  have hfield := length_lengthField payload
  have hlength : reader.bytes.length = cut := by
    rw [hbytes, List.length_take, List.length_append]
    omega
  by_cases hfour : cut < 4
  · exact readHeader_short (hlength ▸ hfour)
  · have htake : reader.bytes.take 4 = lengthField payload := by
      rw [hbytes, List.take_take, Nat.min_eq_left (by omega), List.take_left' hfield]
    obtain ⟨sizes, hheader⟩ := @readHeader_ok codec reader (by omega)
    rw [htake, lengthField, fromBigEndian_length hfits] at hheader
    rw [hheader]
    apply readPayload_short hfits
    change (reader.bytes.drop 4).length < payload.length
    rw [List.length_drop]
    omega

theorem frameOf_eq (payload : Bytes) :
    frameOf payload = protocolMagic ++ (lengthField payload ++ payload) :=
  List.append_assoc _ _ _

/-- A frame that is there is decoded, and the reader stands behind it. -/
theorem readMessage_frame (hfits : payload.length ≤ maxMessageSize)
    (hbytes : reader.bytes = frameOf payload ++ rest) :
    ∃ sizes, readMessage codec reader = (codec.decode payload, ⟨rest, sizes⟩) := by
  rw [frameOf_eq, List.append_assoc, List.append_assoc] at hbytes
  obtain ⟨sizes, hmessage⟩ := @readMessage_magic codec reader _ hbytes
  rw [hmessage]
  exact readHeader_frame hfits rfl

/-- A frame of which some is there, but not all, is an error of the protocol. -/
theorem readMessage_cut {cut : Nat} (hfits : payload.length ≤ maxMessageSize)
    (hbytes : reader.bytes = (frameOf payload).take cut) (hpos : 0 < cut)
    (hcut : cut < (frameOf payload).length) :
    ∃ detail, (readMessage codec reader).1 = .error (.protocol detail) := by
  rw [length_frameOf] at hcut
  rw [frameOf_eq] at hbytes
  by_cases hfour : cut < 4
  · -- the magic itself is cut
    obtain ⟨before, rfl⟩ := Nat.exists_eq_succ_of_ne_zero (Nat.pos_iff_ne_zero.mp hpos)
    have hcons : reader.bytes = 80 :: ([50, 80, 70] ++ (lengthField payload ++ payload)).take before :=
      hbytes
    apply readMessage_short hcons
    rw [List.length_take]
    omega
  · obtain ⟨behind, rfl⟩ := Nat.exists_eq_add_of_le (Nat.le_of_not_lt hfour)
    have hsplit : (protocolMagic ++ (lengthField payload ++ payload)).take (4 + behind) =
        protocolMagic ++ (lengthField payload ++ payload).take behind :=
      @List.take_length_add_append _ protocolMagic _ behind
    rw [hsplit] at hbytes
    obtain ⟨sizes, hmessage⟩ := @readMessage_magic codec reader _ hbytes
    rw [hmessage]
    exact readHeader_cut hfits rfl (by omega)

/-! ## A whole stream -/

/-- The frames of these messages, one each. -/
abbrev Written (codec : MessageCodec) (messages : List Message) (frames : List Bytes) : Prop :=
  List.Forall₂ (fun message frame => writeFrame codec message = .ok frame) messages frames

/-- Where the first frames end. -/
def boundary (frames : List Bytes) (count : Nat) : Nat := (frames.take count).flatten.length

@[simp]
theorem boundary_zero (frames : List Bytes) : boundary frames 0 = 0 := by
  rw [boundary, List.take_zero, List.flatten_nil, List.length_nil]

@[simp]
theorem boundary_succ (frame : Bytes) (frames : List Bytes) (count : Nat) :
    boundary (frame :: frames) (count + 1) = frame.length + boundary frames count := by
  rw [boundary, List.take_succ_cons, List.flatten_cons, List.length_append]
  rfl

/-- What repeated calls are to make of the first bytes of a stream: the messages of the
complete frames, and then what the cut is. -/
structure Classified (frames : List Bytes) (messages : List Message) (cut : Nat)
    (result : List Message × Option Error) : Prop where
  messages : ∃ whole ≤ messages.length, result.1 = messages.take whole ∧
    ∀ index < messages.length, boundary frames (index + 1) ≤ cut ↔ index < whole
  atBoundary : (∃ count ≤ frames.length, cut = boundary frames count) →
    result.2 = some .disconnected
  inside : (¬∃ count ≤ frames.length, cut = boundary frames count) →
    ∃ detail, result.2 = some (.protocol detail)

theorem readMessages_of_error {error : Error} (hread : (readMessage codec reader).1 = .error error)
    (calls : Nat) : readMessages codec (calls + 1) reader = ([], some error) := by
  rw [readMessages]
  rcases hresult : readMessage codec reader with ⟨result, next⟩
  rw [hresult] at hread
  dsimp only at hread
  rw [hread]

/-- The end of the stream between two frames. -/
theorem readMessages_nil (hbytes : reader.bytes = []) (calls : Nat) :
    readMessages codec (calls + 1) reader = ([], some .disconnected) :=
  readMessages_of_error (readMessage_nil hbytes) calls

theorem readMessages_of_ok {message : Message} {next : Reader}
    (hread : readMessage codec reader = (.ok message, next)) (calls : Nat) :
    readMessages codec (calls + 1) reader =
      (message :: (readMessages codec calls next).1, (readMessages codec calls next).2) := by
  rw [readMessages, hread]

/-- Every list of messages, cut anywhere and read in any fragments. -/
theorem cut_stream_classified {messages : List Message} {frames : List Bytes} {cut calls : Nat}
    {sizes : Nat → Nat} (hinverse : codec.Inverse) (hwritten : Written codec messages frames)
    (hcut : cut ≤ frames.flatten.length) (hcalls : messages.length < calls) :
    Classified frames messages cut
      (readMessages codec calls ⟨frames.flatten.take cut, sizes⟩) := by
  induction hwritten generalizing cut calls sizes with
  | nil =>
      obtain ⟨more, rfl⟩ := Nat.exists_eq_succ_of_ne_zero (Nat.pos_iff_ne_zero.mp hcalls)
      have hzero : cut = 0 := Nat.le_zero.mp hcut
      rw [readMessages_nil List.take_nil more]
      refine ⟨⟨0, Nat.le_refl 0, rfl, fun index hindex => absurd hindex (Nat.not_lt_zero index)⟩,
        fun _ => rfl, ?_⟩
      intro hinside
      exact absurd ⟨0, Nat.le_refl 0, hzero⟩ hinside
  | @cons message frame messages frames hwrite hwritten ih =>
      obtain ⟨more, rfl⟩ := Nat.exists_eq_succ_of_ne_zero (Nat.ne_of_gt (Nat.lt_of_le_of_lt
        (Nat.zero_le _) hcalls))
      obtain ⟨payload, hencode, hfits, rfl⟩ := writeFrame_eq_ok hwrite
      rw [List.flatten_cons] at hcut ⊢
      rw [List.length_append] at hcut
      by_cases hwhole : (frameOf payload).length ≤ cut
      · -- the first frame is complete: read it and go on behind it
        obtain ⟨left, rfl⟩ := Nat.exists_eq_add_of_le hwhole
        rw [List.take_length_add_append]
        obtain ⟨later, hread⟩ := @readMessage_frame codec payload (frames.flatten.take left)
          ⟨frameOf payload ++ frames.flatten.take left, sizes⟩ hfits rfl
        rw [hinverse message payload hencode] at hread
        rw [readMessages_of_ok hread]
        have hrest := @ih left more later (by omega) (Nat.lt_of_succ_lt_succ hcalls)
        obtain ⟨⟨whole, hle, hmessages, hcomplete⟩, hat, hin⟩ := hrest
        have hshift : (∃ count ≤ (frameOf payload :: frames).length,
            (frameOf payload).length + left = boundary (frameOf payload :: frames) count) ↔
              ∃ count ≤ frames.length, left = boundary frames count := by
          constructor
          · rintro ⟨count, hcount, heq⟩
            cases count with
            | zero =>
                rw [boundary_zero, length_frameOf] at heq
                omega
            | succ count =>
                rw [boundary_succ] at heq
                exact ⟨count, Nat.le_of_succ_le_succ hcount, Nat.add_left_cancel heq⟩
          · rintro ⟨count, hcount, heq⟩
            refine ⟨count + 1, Nat.succ_le_succ hcount, ?_⟩
            rw [boundary_succ, heq]
        refine ⟨⟨whole + 1, Nat.succ_le_succ hle, ?_, ?_⟩, ?_, ?_⟩
        · rw [List.take_succ_cons, ← hmessages]
        · intro index hindex
          rw [boundary_succ, Nat.add_le_add_iff_left]
          cases index with
          | zero =>
              rw [boundary_zero]
              exact ⟨fun _ => Nat.zero_lt_succ _, fun _ => Nat.zero_le _⟩
          | succ index =>
              rw [Nat.succ_lt_succ_iff]
              exact hcomplete index (Nat.lt_of_succ_lt_succ hindex)
        · exact fun hboundary => hat (hshift.mp hboundary)
        · exact fun hinside => hin fun hboundary => hinside (hshift.mpr hboundary)
      · -- the cut is in the first frame
        have hless : cut < (frameOf payload).length := Nat.not_le.mp hwhole
        have htake : (frameOf payload ++ frames.flatten).take cut = (frameOf payload).take cut :=
          List.take_append_of_le_length (Nat.le_of_lt hless)
        have hnone : ∀ index < (message :: messages).length,
            boundary (frameOf payload :: frames) (index + 1) ≤ cut ↔ index < 0 := by
          intro index _
          rw [boundary_succ]
          omega
        rw [htake]
        rcases Nat.eq_zero_or_pos cut with rfl | hpos
        · rw [@readMessages_nil codec ⟨(frameOf payload).take 0, sizes⟩ rfl more]
          refine ⟨⟨0, Nat.zero_le _, rfl, hnone⟩, fun _ => rfl, ?_⟩
          intro hinside
          exact absurd ⟨0, Nat.zero_le _, (boundary_zero _).symm⟩ hinside
        · obtain ⟨detail, hread⟩ := @readMessage_cut codec payload
            ⟨(frameOf payload).take cut, sizes⟩ cut hfits rfl hpos hless
          rw [readMessages_of_error hread more]
          refine ⟨⟨0, Nat.zero_le _, rfl, hnone⟩, ?_, fun _ => ⟨detail, rfl⟩⟩
          rintro ⟨count, _, heq⟩
          cases count with
          | zero =>
              rw [boundary_zero] at heq
              omega
          | succ count =>
              rw [boundary_succ] at heq
              omega

/-! ## Two frames, the second of which is cut -/

/-- A codec that knows two messages. -/
def pingPong : MessageCodec where
  encode := fun message =>
    match message with
    | .ping => .ok [1]
    | .pong => .ok [2, 2]
    | _ => .error .cancelled
  decode := fun payload =>
    if payload = [1] then .ok .ping else if payload = [2, 2] then .ok .pong else .error .cancelled

theorem inverse_pingPong : pingPong.Inverse := by
  intro message payload hencode
  cases message with
  | ping | pong =>
      cases hencode
      rfl
  | discoveryBeacon | hello | helloAck | config | configAck | transferInfo | ready | resume | pause
  | cancel | complete | fileChecksum | error => cases hencode

theorem written_pingPong : Written pingPong [.ping, .pong] [frameOf [1], frameOf [2, 2]] :=
  .cons rfl (.cons rfl .nil)

/-- The first read behind the first byte returns a single byte. -/
theorem cut_stream_classified_pingPong :
    Classified [frameOf [1], frameOf [2, 2]] [.ping, .pong] 12
      (readMessages pingPong 3
        ⟨[frameOf [1], frameOf [2, 2]].flatten.take 12, fun round => if round = 1 then 1 else 8⟩) :=
  cut_stream_classified inverse_pingPong written_pingPong (by decide) (by decide)

end P2PFileTransfer.Session.Framing
