import P2pDdns.Base64
import P2pDdns.Daemon
import P2pDdns.RecordFormats

/-!
The text of a ticket: its fields as bytes, the bytes in base64, and the way back.
-/

set_option autoImplicit false

namespace P2pDdns
open Std FiniteMaps WireFormats

/-! Fields on the wire. -/

abbrev TicketFields := TopicId × List UInt8 × NodeFields

def Ticket.toWire (ticket : Ticket) : TicketFields :=
  (ticket.topic, ticket.rnum, ticket.invitor.toWire)

def Ticket.ofWire (fields : TicketFields) : Ticket := ⟨fields.1, fields.2.1, .ofWire fields.2.2⟩

/-! Their bytes. -/

def topicIdFormat : Format TopicId := endpointIdFormat

def ticketInnerFormat : Format TicketFields :=
  topicIdFormat.pair (byteSeq.pair nodeFieldsFormat)

/-- Tickets as text; the messages of a text that is not one are parameters, as is everything
else. -/
def Codecs.onWire (codecs : Codecs) (badText : String → String)
    (badBytes : List UInt8 → String) : Codecs :=
  { codecs with
    base64Decode := fun text =>
      match Base64.decode text with
      | some bytes => .ok bytes
      | none => .error (badText text)
    base64Encode := Base64.encode
    ticketFromBytes := fun bytes =>
      match ticketInnerFormat.decode bytes with
      | some fields => .ok (.ofWire fields)
      | none => .error (badBytes bytes)
    ticketToBytes := fun ticket => some (ticketInnerFormat.write ticket.toWire) }

/-! What comes back. -/

/-- The heartbeat is a u64, and no IP address has a part that is not on the wire. -/
structure Ticket.Portable (ticket : Ticket) : Prop where
  heartbeat : ticket.invitor.lastHeartbeat < UInt64.size
  sockets : ∀ sock, TransportAddr.ip sock ∈ ticket.invitor.addr.addrs → sock.Unlabelled

theorem Ticket.ofWire_toWire_iff {ticket : Ticket} :
    Ticket.ofWire ticket.toWire = ticket ↔ ticket.Portable := by
  obtain ⟨topic, rnum, node⟩ := ticket
  have hfields : Ticket.ofWire (Ticket.toWire ⟨topic, rnum, node⟩) = ⟨topic, rnum, node.carried⟩ :=
    rfl
  simp only [hfields, Ticket.mk.injEq, true_and, Node.carried_eq_iff]
  exact ⟨fun h => ⟨h.heartbeat, h.addr⟩, fun h => ⟨h.heartbeat, h.sockets⟩⟩

section Texts
variable (codecs : Codecs) (badText : String → String) (badBytes : List UInt8 → String)

theorem toString_onWire (ticket : Ticket) :
    ticket.toString (codecs.onWire badText badBytes) =
      Base64.encode (ticketInnerFormat.write ticket.toWire) := rfl

theorem fromStr_toString (ticket : Ticket) :
    Ticket.fromStr (codecs.onWire badText badBytes)
        (ticket.toString (codecs.onWire badText badBytes)) =
      .ok (.ofWire ticket.toWire) := by
  rw [toString_onWire, Ticket.fromStr]
  simp only [Codecs.onWire, Base64.decode_encode, bind, Except.bind, Format.decode_write]

theorem fromStr_toString_iff (ticket : Ticket) :
    Ticket.fromStr (codecs.onWire badText badBytes)
        (ticket.toString (codecs.onWire badText badBytes)) = .ok ticket ↔
      ticket.Portable := by
  rw [fromStr_toString, Except.ok.injEq, Ticket.ofWire_toWire_iff]

theorem toWire_eq_of_toString {ticket ticket' : Ticket}
    (h : ticket.toString (codecs.onWire badText badBytes) =
      ticket'.toString (codecs.onWire badText badBytes)) : ticket.toWire = ticket'.toWire := by
  rw [toString_onWire, toString_onWire] at h
  exact ticketInnerFormat.write_injective (Base64.encode_injective h)

/-- A ticket comes back from its text with all its fields, and no two tickets have one text. -/
theorem ticket_round_trip :
    (∀ ticket : Ticket, ticket.Portable →
      Ticket.fromStr (codecs.onWire badText badBytes)
        (ticket.toString (codecs.onWire badText badBytes)) = .ok ticket) ∧
    ∀ ticket ticket' : Ticket, ticket.Portable → ticket'.Portable → ticket ≠ ticket' →
      ticket.toString (codecs.onWire badText badBytes) ≠
        ticket'.toString (codecs.onWire badText badBytes) := by
  constructor
  · intro ticket h
    exact (fromStr_toString_iff codecs badText badBytes ticket).mpr h
  · intro ticket ticket' h h' hne htext
    have hwire := congrArg Ticket.ofWire (toWire_eq_of_toString codecs badText badBytes htext)
    rw [Ticket.ofWire_toWire_iff.mpr h, Ticket.ofWire_toWire_iff.mpr h'] at hwire
    exact hne hwire

end Texts

namespace Sample

def bobsTicket : Ticket :=
  ⟨5, [1, 2, 3, 4],
    { nodeId := bob, invitor := alice
      addr := .fromParts bob [.relay "https://relay.example/", .ip (.v4 0x0a000002 7777),
        .ip (.v6 0x20010db8000000000000000000000002 7777 0 0)]
      domain := "bob", services := (∅ : ExtTreeMap String UInt32).insert "ssh" 22
      lastHeartbeat := 950 }⟩

theorem bobsTicket_portable : bobsTicket.Portable where
  heartbeat := by decide
  sockets sock h := by
    simp only [bobsTicket, EndpointAddr.mem_fromParts, List.mem_cons, List.not_mem_nil,
      reduceCtorEq, TransportAddr.ip.injEq, false_or, or_false] at h
    obtain rfl | rfl := h
    · trivial
    · exact ⟨rfl, rfl⟩

def onWire : Codecs := codecs.onWire (fun _ => "Invalid input") fun _ => "Hit the end of buffer"

theorem bobsTicket_comes_back :
    Ticket.fromStr onWire (bobsTicket.toString onWire) = .ok bobsTicket :=
  (ticket_round_trip codecs (fun _ => "Invalid input") fun _ => "Hit the end of buffer").1
    bobsTicket bobsTicket_portable

end Sample
end P2pDdns
