import P2pDdns.Messages
import P2pDdns.RecordFormats

/-!
Signed messages as they go over the wire: what a signature covers, and the way from a message to
the bytes of its envelope and back. The signatures, and the formats of keys, signatures and
messages, are parameters.
-/

set_option autoImplicit false

namespace P2pDdns
open WireFormats

variable {SecretKey Signature : Type}

structure SignatureScheme (SecretKey Signature : Type) where
  publicKey : SecretKey → EndpointId
  sign : SecretKey → List UInt8 → Signature
  verify : EndpointId → List UInt8 → Signature → Bool

/-- A signature verifies for the key and the bytes it was made with, and for no others. -/
structure SignatureScheme.Ideal (scheme : SignatureScheme SecretKey Signature) : Prop where
  verifies : ∀ key bytes, scheme.verify (scheme.publicKey key) bytes (scheme.sign key bytes) = true
  binds : ∀ key bytes sender bytes', scheme.verify sender bytes' (scheme.sign key bytes) = true →
    sender = scheme.publicKey key ∧ bytes' = bytes

structure Envelope (Signature : Type) where
  sender : EndpointId
  data : List UInt8
  signature : Signature
  timestamp : UInt64

structure EnvelopeFormats (Signature : Type) where
  key : Format EndpointId
  signature : Format Signature
  writeMessage : Message → List UInt8
  readMessage : List UInt8 → Option Message

namespace Envelope

/-- The two fields a signature covers, one behind the other. -/
def signingBytes (data : List UInt8) (timestamp : UInt64) : List UInt8 :=
  (byteSeq.pair u64).write (data, timestamp)

def format (formats : EnvelopeFormats Signature) : Format (Envelope Signature) :=
  (formats.key.pair (byteSeq.pair (formats.signature.pair u64))).iso
    (fun fields => ⟨fields.1, fields.2.1, fields.2.2.1, fields.2.2.2⟩)
    (fun envelope =>
      (envelope.sender, envelope.data, envelope.signature, envelope.timestamp))
    (fun _ => rfl)

def decode (formats : EnvelopeFormats Signature) (bytes : List UInt8) :
    Option (Envelope Signature) :=
  (format formats).decode bytes

def verifyAndDecodeMessage (scheme : SignatureScheme SecretKey Signature)
    (formats : EnvelopeFormats Signature) (envelope : Envelope Signature) :
    Option (EndpointId × Message) :=
  if scheme.verify envelope.sender (signingBytes envelope.data envelope.timestamp)
      envelope.signature then
    (formats.readMessage envelope.data).map fun message => (envelope.sender, message)
  else none

def signAndEncodeWithTimestamp (scheme : SignatureScheme SecretKey Signature)
    (formats : EnvelopeFormats Signature) (secretKey : SecretKey) (message : Message)
    (timestamp : UInt64) : List UInt8 :=
  let data := formats.writeMessage message
  let signature := scheme.sign secretKey (signingBytes data timestamp)
  (format formats).write ⟨scheme.publicKey secretKey, data, signature, timestamp⟩

/-- What a daemon makes of the bytes it receives. -/
def decodeAndVerify (scheme : SignatureScheme SecretKey Signature)
    (formats : EnvelopeFormats Signature) (bytes : List UInt8) : Option SignedMessage :=
  (decode formats bytes).bind fun envelope =>
    (verifyAndDecodeMessage scheme formats envelope).map fun found =>
      ⟨found.1, found.2, envelope.timestamp.toNat⟩

/-- The length in front of the data keeps the two fields apart. -/
theorem signingBytes_injective {data data' : List UInt8} {timestamp timestamp' : UInt64}
    (h : signingBytes data timestamp = signingBytes data' timestamp') :
    data = data' ∧ timestamp = timestamp' :=
  Prod.mk.inj ((byteSeq.pair u64).write_injective h)

theorem verify_of_verifyAndDecodeMessage {scheme : SignatureScheme SecretKey Signature}
    {formats : EnvelopeFormats Signature} {envelope : Envelope Signature}
    (h : (verifyAndDecodeMessage scheme formats envelope).isSome = true) :
    scheme.verify envelope.sender (signingBytes envelope.data envelope.timestamp)
      envelope.signature = true := by
  unfold verifyAndDecodeMessage at h
  split at h
  · assumption
  · contradiction

theorem decode_signAndEncode (scheme : SignatureScheme SecretKey Signature)
    (formats : EnvelopeFormats Signature) (secretKey : SecretKey) (message : Message)
    (timestamp : UInt64) :
    decode formats (signAndEncodeWithTimestamp scheme formats secretKey message timestamp) =
      some ⟨scheme.publicKey secretKey, formats.writeMessage message,
        scheme.sign secretKey (signingBytes (formats.writeMessage message) timestamp),
        timestamp⟩ :=
  (format formats).decode_write _

theorem verifyAndDecodeMessage_signed {scheme : SignatureScheme SecretKey Signature}
    (hideal : scheme.Ideal) (formats : EnvelopeFormats Signature) (secretKey : SecretKey)
    (data : List UInt8) (timestamp : UInt64) :
    verifyAndDecodeMessage scheme formats ⟨scheme.publicKey secretKey, data,
      scheme.sign secretKey (signingBytes data timestamp), timestamp⟩ =
      (formats.readMessage data).map fun message => (scheme.publicKey secretKey, message) := by
  rw [verifyAndDecodeMessage, if_pos (hideal.verifies secretKey _)]

/-- A daemon receives the message, the sender and the time that were signed. -/
theorem decodeAndVerify_signAndEncode {scheme : SignatureScheme SecretKey Signature}
    (hideal : scheme.Ideal) {formats : EnvelopeFormats Signature} (secretKey : SecretKey)
    {message : Message} (timestamp : UInt64)
    (hmessage : formats.readMessage (formats.writeMessage message) = some message) :
    decodeAndVerify scheme formats
        (signAndEncodeWithTimestamp scheme formats secretKey message timestamp) =
      some ⟨scheme.publicKey secretKey, message, timestamp.toNat⟩ := by
  rw [decodeAndVerify, decode_signAndEncode, Option.bind_some,
    verifyAndDecodeMessage_signed hideal, hmessage]
  rfl

/-- Under ideal signatures an envelope binds its sender, content and time: a signature made for
some data and time passes with no others, and every envelope that is made passes with its own. -/
theorem envelope_binds {scheme : SignatureScheme SecretKey Signature} (hideal : scheme.Ideal)
    (formats : EnvelopeFormats Signature) (secretKey : SecretKey) :
    (∀ data timestamp data' timestamp',
      signingBytes data timestamp = signingBytes data' timestamp' →
        data = data' ∧ timestamp = timestamp') ∧
    (∀ data timestamp envelope,
      envelope.signature = scheme.sign secretKey (signingBytes data timestamp) →
      (verifyAndDecodeMessage scheme formats envelope).isSome = true →
        envelope.sender = scheme.publicKey secretKey ∧ data = envelope.data ∧
          timestamp = envelope.timestamp) ∧
    ∀ message timestamp, ∃ envelope,
      decode formats (signAndEncodeWithTimestamp scheme formats secretKey message timestamp) =
        some envelope ∧
      envelope.sender = scheme.publicKey secretKey ∧
      envelope.data = formats.writeMessage message ∧ envelope.timestamp = timestamp ∧
      scheme.verify envelope.sender (signingBytes envelope.data envelope.timestamp)
        envelope.signature = true := by
  refine ⟨fun _ _ _ _ => signingBytes_injective, ?_, ?_⟩
  · intro data timestamp envelope hsignature hpassed
    have hverify := verify_of_verifyAndDecodeMessage hpassed
    rw [hsignature] at hverify
    obtain ⟨hsender, hbytes⟩ := hideal.binds secretKey _ _ _ hverify
    obtain ⟨hdata, htime⟩ := signingBytes_injective hbytes
    exact ⟨hsender, hdata.symm, htime.symm⟩
  · intro message timestamp
    exact ⟨_, decode_signAndEncode scheme formats secretKey message timestamp, rfl, rfl, rfl,
      hideal.verifies secretKey _⟩

end Envelope

namespace Sample

/-- Signatures that say what they were made with. -/
def openScheme : SignatureScheme EndpointId (EndpointId × List UInt8) where
  publicKey key := key
  sign key bytes := (key, bytes)
  verify sender bytes signature := signature = (sender, bytes)

def openFormats : EnvelopeFormats (EndpointId × List UInt8) where
  key := endpointIdFormat
  signature := endpointIdFormat.pair byteSeq
  writeMessage
    | .heartbeat => [5]
    | _ => [6]
  readMessage
    | 5 :: _ => some .heartbeat
    | 6 :: _ => some .left
    | _ => none

theorem openScheme_ideal : openScheme.Ideal where
  verifies _ _ := decide_eq_true rfl
  binds key bytes sender bytes' h := by
    obtain ⟨hkey, hbytes⟩ := Prod.mk.inj (of_decide_eq_true h)
    exact ⟨hkey.symm, hbytes.symm⟩

theorem envelope_binds_open :
    (∀ data timestamp data' timestamp',
      Envelope.signingBytes data timestamp = Envelope.signingBytes data' timestamp' →
        data = data' ∧ timestamp = timestamp') ∧
    (∀ data timestamp envelope,
      envelope.signature = openScheme.sign 7 (Envelope.signingBytes data timestamp) →
      (Envelope.verifyAndDecodeMessage openScheme openFormats envelope).isSome = true →
        envelope.sender = openScheme.publicKey 7 ∧ data = envelope.data ∧
          timestamp = envelope.timestamp) ∧
    ∀ message timestamp, ∃ envelope,
      Envelope.decode openFormats
          (Envelope.signAndEncodeWithTimestamp openScheme openFormats 7 message timestamp) =
        some envelope ∧
      envelope.sender = openScheme.publicKey 7 ∧
      envelope.data = openFormats.writeMessage message ∧ envelope.timestamp = timestamp ∧
      openScheme.verify envelope.sender
        (Envelope.signingBytes envelope.data envelope.timestamp) envelope.signature = true :=
  Envelope.envelope_binds openScheme_ideal openFormats 7

end Sample
end P2pDdns
