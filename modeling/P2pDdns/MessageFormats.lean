import P2pDdns.Frames
import P2pDdns.TicketTexts

/-!
Messages between daemons as bytes: a variant behind its number, field by field. Of a socket
address the bytes hold the IP and the port, and a heartbeat has 64 bits.
-/

set_option autoImplicit false

namespace P2pDdns
open Std FiniteMaps WireFormats Streams

/-! Fields on the wire. -/

abbrev AnnouncementFields := EndpointFields × String × ExtTreeMap String UInt32 × EndpointId

inductive MessageFields where
  | invited (topic : TopicId) (rnum : List UInt8) (about : AnnouncementFields)
  | aboutMe (about : AnnouncementFields)
  | introduce (invited : EndpointId)
  | syncRequest (nodes : List NodeFields)
  | syncResponse (nodes : List NodeFields)
  | heartbeat
  | left

namespace Message

def toWire : Message → MessageFields
  | .invited topic rnum addr aliasName services invitor =>
    .invited topic rnum (addr.toWire, aliasName, services, invitor)
  | .aboutMe addr aliasName services invitor => .aboutMe (addr.toWire, aliasName, services, invitor)
  | .introduce id => .introduce id
  | .syncRequest nodes => .syncRequest (nodes.map Node.toWire)
  | .syncResponse nodes => .syncResponse (nodes.map Node.toWire)
  | .heartbeat => .heartbeat
  | .left => .left

def ofWire : MessageFields → Message
  | .invited topic rnum about =>
    .invited topic rnum (.ofWire about.1) about.2.1 about.2.2.1 about.2.2.2
  | .aboutMe about => .aboutMe (.ofWire about.1) about.2.1 about.2.2.1 about.2.2.2
  | .introduce id => .introduce id
  | .syncRequest nodes => .syncRequest (nodes.map Node.ofWire)
  | .syncResponse nodes => .syncResponse (nodes.map Node.ofWire)
  | .heartbeat => .heartbeat
  | .left => .left

def carried (message : Message) : Message := ofWire message.toWire

end Message

/-! Their bytes. -/

def announcementFormat : Format AnnouncementFields :=
  endpointFieldsFormat.pair (text.pair (servicesFormat.pair endpointIdFormat))

def invitedFormat : Format (TopicId × List UInt8 × AnnouncementFields) :=
  topicIdFormat.pair (byteSeq.pair announcementFormat)

def messageFieldsFormat : Format MessageFields where
  write
    | .invited topic rnum about => writeTag 0 ++ invitedFormat.write (topic, rnum, about)
    | .aboutMe about => writeTag 1 ++ announcementFormat.write about
    | .introduce invited => writeTag 2 ++ endpointIdFormat.write invited
    | .syncRequest nodes => writeTag 3 ++ (sequence nodeFieldsFormat).write nodes
    | .syncResponse nodes => writeTag 4 ++ (sequence nodeFieldsFormat).write nodes
    | .heartbeat => writeTag 5
    | .left => writeTag 6
  read bytes :=
    match readTag bytes with
    | some (0, rest) => (invitedFormat.read rest).map fun found =>
        (.invited found.1.1 found.1.2.1 found.1.2.2, found.2)
    | some (1, rest) => (announcementFormat.read rest).map fun found => (.aboutMe found.1, found.2)
    | some (2, rest) => (endpointIdFormat.read rest).map fun found => (.introduce found.1, found.2)
    | some (3, rest) => ((sequence nodeFieldsFormat).read rest).map fun found =>
        (.syncRequest found.1, found.2)
    | some (4, rest) => ((sequence nodeFieldsFormat).read rest).map fun found =>
        (.syncResponse found.1, found.2)
    | some (5, rest) => some (.heartbeat, rest)
    | some (6, rest) => some (.left, rest)
    | _ => none
  read_write message rest := by
    cases message <;>
      simp [readTag_writeTag, List.append_assoc, invitedFormat.read_write,
        announcementFormat.read_write, endpointIdFormat.read_write,
        (sequence nodeFieldsFormat).read_write]

variable {SecretKey Signature : Type}

/-- The formats of messages and keys; that of a signature is a parameter. -/
def wireFormats (signature : Format Signature) : EnvelopeFormats Signature where
  key := endpointIdFormat
  signature := signature
  writeMessage message := messageFieldsFormat.write message.toWire
  readMessage bytes := (messageFieldsFormat.decode bytes).map Message.ofWire

theorem readMessage_writeMessage (signature : Format Signature) (message : Message) :
    (wireFormats signature).readMessage ((wireFormats signature).writeMessage message) =
      some message.carried := by
  simp only [wireFormats, messageFieldsFormat.decode_write]
  rfl

/-! What is kept on the way. -/

/-- Nothing in the message has a part that is not on the wire. -/
def Message.Portable : Message → Prop
  | .invited _ _ addr _ _ _ | .aboutMe addr _ _ _ => addr.Portable
  | .syncRequest nodes | .syncResponse nodes => ∀ node ∈ nodes, node.Portable
  | .introduce _ | .heartbeat | .left => True

theorem Message.carried_eq_iff {message : Message} : message.carried = message ↔ message.Portable := by
  cases message with
  | invited topic rnum addr aliasName services invitor =>
    simp [carried, toWire, ofWire, Portable, EndpointAddr.Portable, EndpointAddr.ofWire_toWire_iff]
  | aboutMe addr aliasName services invitor =>
    simp [carried, toWire, ofWire, Portable, EndpointAddr.Portable, EndpointAddr.ofWire_toWire_iff]
  | syncRequest nodes =>
    simp only [carried, toWire, ofWire, Message.syncRequest.injEq]
    exact map_carried_eq_iff
  | syncResponse nodes =>
    simp only [carried, toWire, ofWire, Message.syncResponse.injEq]
    exact map_carried_eq_iff
  | introduce _ | heartbeat | left => simp [carried, toWire, ofWire, Portable]

/-! What does not depend on the addresses. -/

def Message.withoutAddrs : Message → Message
  | .invited topic rnum addr aliasName services invitor =>
    .invited topic rnum (.new addr.id) aliasName services invitor
  | .aboutMe addr aliasName services invitor => .aboutMe (.new addr.id) aliasName services invitor
  | .introduce id => .introduce id
  | .syncRequest nodes => .syncRequest (nodes.map withoutAddr)
  | .syncResponse nodes => .syncResponse (nodes.map withoutAddr)
  | .heartbeat => .heartbeat
  | .left => .left

theorem withoutAddr_carried {node : Node} (h : node.lastHeartbeat < UInt64.size) :
    withoutAddr node.carried = withoutAddr node := by
  have hfields : withoutAddr node.carried =
      { withoutAddr node with lastHeartbeat := node.lastHeartbeat % UInt64.size } := rfl
  rw [hfields, Nat.mod_eq_of_lt h]
  rfl

/-- A message arrives as it was sent, but for the addresses. -/
theorem Message.withoutAddrs_carried {message : Message}
    (h : ∀ node ∈ message.nodes, node.lastHeartbeat < UInt64.size) :
    message.carried.withoutAddrs = message.withoutAddrs := by
  have hnodes : ∀ nodes : List Node, (∀ node ∈ nodes, node.lastHeartbeat < UInt64.size) →
      ((nodes.map Node.toWire).map Node.ofWire).map withoutAddr = nodes.map withoutAddr := by
    intro nodes hfits
    rw [List.map_map, List.map_map]
    exact List.map_congr_left fun node hnode => withoutAddr_carried (hfits node hnode)
  cases message with
  | syncRequest nodes => exact congrArg Message.syncRequest (hnodes nodes h)
  | syncResponse nodes => exact congrArg Message.syncResponse (hnodes nodes h)
  | invited | aboutMe | introduce | heartbeat | left => rfl

theorem Message.withoutAddrs_eq_invited {heard : Message} {topic : TopicId} {rnum : List UInt8}
    {addr : EndpointAddr} {aliasName : String} {services : ExtTreeMap String UInt32}
    {invitor : EndpointId}
    (h : heard.withoutAddrs = (Message.invited topic rnum addr aliasName services invitor).withoutAddrs) :
    ∃ addr', heard = .invited topic rnum addr' aliasName services invitor := by
  cases heard with
  | invited topic' rnum' addr' aliasName' services' invitor' =>
    obtain ⟨rfl, rfl, -, rfl, rfl, rfl⟩ := Message.invited.inj h
    exact ⟨addr', rfl⟩
  | aboutMe | introduce | syncRequest | syncResponse | heartbeat | left => contradiction

theorem Message.withoutAddrs_eq_syncResponse {heard : Message} {nodes : List Node}
    (h : heard.withoutAddrs = (Message.syncResponse nodes).withoutAddrs) :
    ∃ nodes', heard = .syncResponse nodes' ∧ nodes'.map withoutAddr = nodes.map withoutAddr := by
  cases heard with
  | syncResponse nodes' => exact ⟨nodes', rfl, Message.syncResponse.inj h⟩
  | invited | aboutMe | introduce | syncRequest | heartbeat | left => contradiction

theorem mem_of_withoutAddr {nodes nodes' : List Node}
    (h : nodes'.map withoutAddr = nodes.map withoutAddr) {node : Node} (hnode : node ∈ nodes) :
    ∃ node' ∈ nodes', node'.nodeId = node.nodeId ∧ isDaemonNode node' = isDaemonNode node ∧
      node'.lastHeartbeat = node.lastHeartbeat := by
  have hmem : withoutAddr node ∈ nodes'.map withoutAddr := h ▸ List.mem_map_of_mem hnode
  obtain ⟨node', hnode', hsame⟩ := List.mem_map.mp hmem
  simp only [withoutAddr, Node.mk.injEq] at hsame
  obtain ⟨hid, -, -, -, hservices, hheartbeat⟩ := hsame
  exact ⟨node', hnode', hid, by rw [isDaemonNode, isDaemonNode, hservices], hheartbeat⟩

/-! The way of a message. -/

section Way
variable {scheme : SignatureScheme SecretKey Signature} (hideal : scheme.Ideal)
  (signature : Format Signature) (secretKey : SecretKey) (message : Message) (timestamp : UInt64)
include hideal

theorem decodeAndVerify_carried :
    Envelope.decodeAndVerify scheme (wireFormats signature)
        (Envelope.signAndEncodeWithTimestamp scheme (wireFormats signature) secretKey message
          timestamp) =
      some ⟨scheme.publicKey secretKey, message.carried, timestamp.toNat⟩ := by
  rw [Envelope.decodeAndVerify, Envelope.decode_signAndEncode, Option.bind_some,
    Envelope.verifyAndDecodeMessage_signed hideal, readMessage_writeMessage]
  rfl

/-- However its bytes are cut up on the way, the envelope is read whole and verified as the message
that was sent, from whom and when it was sent. -/
def P2Protocol.Delivers (scheme : SignatureScheme SecretKey Signature) : Prop :=
  let envelope := Envelope.signAndEncodeWithTimestamp scheme (wireFormats signature) secretKey
    message timestamp
  ∀ stream, Flowing stream →
    stream.flatten = P2Protocol.sendMsg scheme (wireFormats signature) secretKey message timestamp →
    ∃ rest, P2Protocol.recvMsg stream = .ok (envelope, rest) ∧
      Envelope.decodeAndVerify scheme (wireFormats signature) envelope =
        some ⟨scheme.publicKey secretKey, message, timestamp.toNat⟩

/-- A message is delivered exactly if its envelope has at most 4 MiB and nothing in it is left off
the wire. -/
theorem message_delivered_iff :
    P2Protocol.Delivers signature secretKey message timestamp scheme ↔
    (Envelope.signAndEncodeWithTimestamp scheme (wireFormats signature) secretKey message
      timestamp).length ≤ 4 * 1024 * 1024 ∧ message.Portable := by
  have hcarried := decodeAndVerify_carried hideal signature secretKey message timestamp
  have hsame : Envelope.decodeAndVerify scheme (wireFormats signature)
      (Envelope.signAndEncodeWithTimestamp scheme (wireFormats signature) secretKey message
        timestamp) = some ⟨scheme.publicKey secretKey, message, timestamp.toNat⟩ ↔
      message.Portable := by
    rw [hcarried, Option.some.injEq, SignedMessage.mk.injEq, Message.carried_eq_iff]
    simp
  set payload := Envelope.signAndEncodeWithTimestamp scheme (wireFormats signature) secretKey
    message timestamp
  have hframe (stream : Stream)
      (hbytes : stream.flatten = P2Protocol.sendMsg scheme (wireFormats signature) secretKey message
        timestamp) : stream.flatten = P2Protocol.framing.frame payload ++ [] := by
    rw [hbytes, List.append_nil]
    rfl
  constructor
  · intro h
    have hbytes := flatten_singles (P2Protocol.sendMsg scheme (wireFormats signature) secretKey
      message timestamp)
    have hflow := flowing_singles (P2Protocol.sendMsg scheme (wireFormats signature) secretKey
      message timestamp)
    obtain ⟨rest, hread, hverified⟩ := h _ hflow hbytes
    exact ⟨(Framing.readFrame_iff hflow (hframe _ hbytes)).mp ⟨rest, hread⟩, hsame.mp hverified⟩
  · rintro ⟨hlimit, hportable⟩ stream hflow hbytes
    obtain ⟨rest, hread⟩ := (Framing.readFrame_iff hflow (hframe _ hbytes)).mpr hlimit
    exact ⟨rest, hread, hsame.mpr hportable⟩

end Way

theorem message_delivered_iff_open :
    P2Protocol.Delivers (endpointIdFormat.pair byteSeq) Sample.alice
        (.syncResponse [Sample.record Sample.bob "bob" [2] 950]) 1001 Sample.openScheme ↔
      (Envelope.signAndEncodeWithTimestamp Sample.openScheme
        (wireFormats (endpointIdFormat.pair byteSeq)) Sample.alice
        (.syncResponse [Sample.record Sample.bob "bob" [2] 950]) 1001).length ≤ 4 * 1024 * 1024 ∧
      (Message.syncResponse [Sample.record Sample.bob "bob" [2] 950]).Portable :=
  message_delivered_iff Sample.openScheme_ideal _ _ _ _

end P2pDdns
