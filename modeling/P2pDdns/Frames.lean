import P2pDdns.AdminFormats
import P2pDdns.Envelopes
import P2pDdns.Streams

/-!
Frames on the admin socket, which daemon and client each write and read with a copy of their own,
and of messages between daemons. Every size limit is the reader's: a sender knows none.
-/

set_option autoImplicit false

namespace P2pDdns
open WireFormats Streams

variable {α SecretKey Signature : Type}

/-- `as u32` cuts the length of a payload off. -/
def adminFraming (limit : Nat) (hlimit : limit < UInt32.size) : Framing where
  width := 4
  writeLength n := bigEndian 4 (n % UInt32.size)
  readLength := ofBigEndian
  limit := limit
  tooLarge len := s!"admin frame too large: {len}"
  length_writeLength n := length_bigEndian 4 _
  readLength_le n := by
    rw [ofBigEndian_bigEndian]
    exact (Nat.mod_le _ _).trans (Nat.mod_le _ _)
  readLength_writeLength n hn := by
    have hsize : n < UInt32.size := Nat.lt_of_le_of_lt hn hlimit
    rw [ofBigEndian_bigEndian, Nat.mod_eq_of_lt hsize]
    exact Nat.mod_eq_of_lt hsize

namespace Server

def MAX_ADMIN_FRAME : Nat := 4 * 1024 * 1024

def framing : Framing := adminFraming MAX_ADMIN_FRAME (by decide)

def sendMessage (format : Format α) (msg : α) : List UInt8 := Streams.sendMessage framing format msg

def readMessage (format : Format α) (stream : Stream) : Except FrameError (α × Stream) :=
  Streams.readMessage framing format stream

end Server

namespace App

def framing : Framing := adminFraming (4 * 1024 * 1024) (by decide)

def sendMessage (format : Format α) (msg : α) : List UInt8 := Streams.sendMessage framing format msg

def readMessage (format : Format α) (stream : Stream) : Except FrameError (α × Stream) :=
  Streams.readMessage framing format stream

end App

namespace P2Protocol

def MAX_MESSAGE_SIZE : Nat := 4 * 1024 * 1024

def framing : Framing where
  width := 8
  writeLength := littleEndian 8
  readLength := ofLittleEndian
  limit := MAX_MESSAGE_SIZE
  tooLarge len := s!"p2p message too large: {len}"
  length_writeLength := length_littleEndian 8
  readLength_le n := by
    rw [ofLittleEndian_littleEndian]
    exact Nat.mod_le _ _
  readLength_writeLength n hn := by
    have hsize : n < fixedBound 8 := Nat.lt_of_le_of_lt hn (by decide)
    rw [ofLittleEndian_littleEndian]
    exact Nat.mod_eq_of_lt hsize

def sendMsg (scheme : SignatureScheme SecretKey Signature) (formats : EnvelopeFormats Signature)
    (secretKey : SecretKey) (msg : Message) (now : UInt64) : List UInt8 :=
  framing.frame (Envelope.signAndEncodeWithTimestamp scheme formats secretKey msg now)

def recvMsg (stream : Stream) : Except FrameError (List UInt8 × Stream) := framing.readFrame stream

end P2Protocol

/-- What the daemon reads is what the client sent, and the other way round, and an envelope
arrives as it was sent, exactly for payloads of at most 4 MiB. -/
theorem frames_delivered_iff :
    (∀ sent : List Sent,
      (∀ stream, Flowing stream →
        stream.flatten = sent.flatMap (fun s => App.sendMessage s.format s.value) →
        Arrives (fun s => App.sendMessage s.format s.value)
          (fun s => Server.readMessage s.format) sent stream) ↔
      ∀ s ∈ sent, s.bytes.length ≤ 4 * 1024 * 1024) ∧
    (∀ sent : List Sent,
      (∀ stream, Flowing stream →
        stream.flatten = sent.flatMap (fun s => Server.sendMessage s.format s.value) →
        Arrives (fun s => Server.sendMessage s.format s.value)
          (fun s => App.readMessage s.format) sent stream) ↔
      ∀ s ∈ sent, s.bytes.length ≤ 4 * 1024 * 1024) ∧
    ∀ {SecretKey Signature : Type} (scheme : SignatureScheme SecretKey Signature)
      (formats : EnvelopeFormats Signature) (secretKey : SecretKey) (msg : Message) (now : UInt64),
      (∀ stream, Flowing stream →
        stream.flatten = P2Protocol.sendMsg scheme formats secretKey msg now →
        ∃ rest, P2Protocol.recvMsg stream =
          .ok (Envelope.signAndEncodeWithTimestamp scheme formats secretKey msg now, rest)) ↔
      (Envelope.signAndEncodeWithTimestamp scheme formats secretKey msg now).length ≤
        4 * 1024 * 1024 := by
  refine ⟨fun sent => forall_arrives_iff App.framing sent,
    fun sent => forall_arrives_iff Server.framing sent, ?_⟩
  intro SecretKey Signature scheme formats secretKey msg now
  have hback (stream : Stream)
      (hbytes : stream.flatten = P2Protocol.sendMsg scheme formats secretKey msg now) :
      stream.flatten = P2Protocol.framing.frame
        (Envelope.signAndEncodeWithTimestamp scheme formats secretKey msg now) ++ [] := by
    rw [hbytes, List.append_nil]
    rfl
  constructor
  · intro h
    have hbytes := flatten_singles (P2Protocol.sendMsg scheme formats secretKey msg now)
    have hflow := flowing_singles (P2Protocol.sendMsg scheme formats secretKey msg now)
    exact (Framing.readFrame_iff hflow (hback _ hbytes)).mp (h _ hflow hbytes)
  · intro h stream hflow hbytes
    exact (Framing.readFrame_iff hflow (hback _ hbytes)).mpr h

theorem large_not_delivered {format : Format α} {value : α}
    (h : 4 * 1024 * 1024 < (format.write value).length) :
    Flowing (singles (App.sendMessage format value)) ∧
    (singles (App.sendMessage format value)).flatten =
      [Sent.mk format value].flatMap (fun s => App.sendMessage s.format s.value) ∧
    ¬ Arrives (fun s => App.sendMessage s.format s.value) (fun s => Server.readMessage s.format)
      [⟨format, value⟩] (singles (App.sendMessage format value)) := by
  have hflow := flowing_singles (App.sendMessage format value)
  have hbytes : (singles (App.sendMessage format value)).flatten =
      [Sent.mk format value].flatMap (fun s => App.sendMessage s.format s.value) := by
    rw [flatten_singles, List.flatMap_singleton]
  refine ⟨hflow, hbytes, fun harrives => ?_⟩
  have hfits := (arrives_iff App.framing hflow hbytes).mp harrives
  exact absurd (hfits _ List.mem_cons_self) (Nat.not_le.mpr h)

theorem length_ticket_lt (auth : AuthRequest) :
    auth.ticket.toList.length < (authRequestFormat.write auth).length := by
  have hticket := length_toList_le_write auth.ticket
  have hwrite : authRequestFormat.write auth = text.write auth.ticket ++
      ((optional text).write auth.clientPublicKey ++ (optional text).write auth.clientName) := rfl
  have hkey : 0 < ((optional text).write auth.clientPublicKey).length := by
    cases auth.clientPublicKey <;> exact Nat.succ_pos _
  rw [hwrite, List.length_append, List.length_append]
  omega

namespace Sample

/-- A login with a ticket as long as a whole frame may be. -/
def longLogin : AuthRequest where
  ticket := .ofList (.replicate (4 * 1024 * 1024) 'x')
  clientPublicKey := some "AAAAAAAAAAAAAAAAAAAAAAAAAAAAAAAAAAAAAAAAAAA"
  clientName := some "cli"

theorem longLogin_ticket : longLogin.ticket.toList.length = 4 * 1024 * 1024 :=
  (congrArg List.length String.toList_ofList).trans List.length_replicate

/-- The client sends it without an error; the daemon does not take it. -/
theorem longLogin_rejected :
    Flowing (singles (App.sendMessage authRequestFormat longLogin)) ∧
    (singles (App.sendMessage authRequestFormat longLogin)).flatten =
      [Sent.mk authRequestFormat longLogin].flatMap
        (fun s => App.sendMessage s.format s.value) ∧
    ¬ Arrives (fun s => App.sendMessage s.format s.value) (fun s => Server.readMessage s.format)
      [⟨authRequestFormat, longLogin⟩]
      (singles (App.sendMessage authRequestFormat longLogin)) :=
  large_not_delivered
    (longLogin_ticket.symm.trans_lt (length_ticket_lt longLogin))

end Sample
end P2pDdns
