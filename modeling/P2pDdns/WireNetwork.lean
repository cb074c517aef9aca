import P2pDdns.Membership

/-!
The network in bytes. Daemons sign and encode what they send and decode and verify what they
receive; outsiders may put any bytes under way that do not take a signature they cannot make.
Such a network does what a network of signed messages does.
-/

set_option autoImplicit false

namespace P2pDdns
open Std WireFormats

variable {SecretKey Signature : Type}

/-- What is under way. An envelope is given by what it was made of. -/
inductive Packet (SecretKey : Type) where
  | booted (me : Node) (ticket : Ticket)
  | sealed (secretKey : SecretKey) (message : Message) (timestamp : UInt64)
  | raw (bytes : List UInt8)

section Packets
variable (scheme : SignatureScheme SecretKey Signature) (signature : Format Signature)

def Packet.bytes : Packet SecretKey → Option (List UInt8)
  | .booted _ _ => none
  | .sealed secretKey message timestamp =>
    some (Envelope.signAndEncodeWithTimestamp scheme (wireFormats signature) secretKey message
      timestamp)
  | .raw bytes => some bytes

def received (bytes : List UInt8) : Option SignedMessage :=
  Envelope.decodeAndVerify scheme (wireFormats signature) bytes

def Packet.means (packet : Packet SecretKey) : Option Item :=
  match packet with
  | .booted me ticket => some (.booted me ticket)
  | packet => ((packet.bytes scheme signature).bind (received scheme signature)).map .signed

end Packets

structure WireRunning (scheme : SignatureScheme SecretKey Signature) where
  running : Running
  secretKey : SecretKey
  owned : scheme.publicKey secretKey = running.ctx.me.nodeId

structure WireMachine (scheme : SignatureScheme SecretKey Signature) where
  disk : Storage
  running : Option (WireRunning scheme)

def WireMachine.plain {scheme : SignatureScheme SecretKey Signature} (m : WireMachine scheme) :
    Machine :=
  ⟨m.disk, m.running.map (·.running)⟩

inductive WireEvent (scheme : SignatureScheme SecretKey Signature) where
  | boot (platform : Platform) (start : Start platform.codecs) (hostsFile : List UInt8)
      (env : LaunchReadings) (secretKey : SecretKey)
      (owned : scheme.publicKey secretKey = start.ctx.me.nodeId)
  | bootFailed (disk : Storage)
  | direct (bytes : List UInt8) (env : Readings) (reply : SendReadings)
  | gossip (bytes : List UInt8) (env : Readings) (reply : SendReadings)
  | loop (e : LoopEvent) (quiet : ∀ signed env reply, ¬ e.Receives signed env reply)
  | crash

namespace WireMachine
variable {scheme : SignatureScheme SecretKey Signature}

def off (disk : Storage) : WireMachine scheme := ⟨disk, none⟩

def turn (m : WireMachine scheme) (e : LoopEvent) : WireMachine scheme × List (Packet SecretKey) :=
  match m.running with
  | none => (m, [])
  | some r =>
    let p := r.running.process.step r.running.platform e
    (⟨p.1.daemon.ctx.storage,
        some
          { running := ⟨r.running.platform, p.1⟩
            secretKey := r.secretKey
            owned := by
              rw [r.owned]
              exact congrArg Node.nodeId (step_frame _ _ e).1.symm }⟩,
      p.2.map fun em => .sealed r.secretKey em.message (.ofNat em.timestamp))

def act (signature : Format Signature) (m : WireMachine scheme) :
    WireEvent scheme → WireMachine scheme × List (Packet SecretKey)
  | .boot platform start hostsFile env secretKey owned =>
    let p := start.launch platform hostsFile env
    (⟨p.1.daemon.ctx.storage,
        some
          { running := ⟨platform, p.1⟩
            secretKey := secretKey
            owned := by
              rw [owned]
              exact congrArg Node.nodeId (launch_frame hostsFile env).1.symm }⟩,
      .booted start.ctx.me start.ctx.ticket ::
        p.2.map fun em => .sealed secretKey em.message (.ofNat em.timestamp))
  | .bootFailed disk => (off disk, [])
  | .direct bytes env reply => m.turn (.spRecv (received scheme signature bytes) env reply)
  | .gossip bytes env reply =>
    m.turn (.gosRecv (.received (received scheme signature bytes) env reply))
  | .loop e _ => m.turn e
  | .crash => (off m.disk, [])

end WireMachine

def WireEvent.plain {scheme : SignatureScheme SecretKey Signature} (signature : Format Signature) :
    WireEvent scheme → MachineEvent
  | .boot platform start hostsFile env _ _ => .boot platform start hostsFile env
  | .bootFailed disk => .bootFailed disk
  | .direct bytes env reply => .loop (.spRecv (received scheme signature bytes) env reply)
  | .gossip bytes env reply => .loop (.gosRecv (.received (received scheme signature bytes) env reply))
  | .loop e _ => .loop e
  | .crash => .crash

namespace Surroundings
variable (w : Surroundings) (scheme : SignatureScheme SecretKey Signature)
  (signature : Format Signature)

/-- A signature that verifies is an outsider's, or was made by a daemon that sent it; an outsider
does not write down a ticket it does not know. -/
def Unforged (sent : List (Packet SecretKey)) (bytes : List UInt8) : Prop :=
  ∀ envelope, Envelope.decode (wireFormats signature) bytes = some envelope →
    scheme.verify envelope.sender (Envelope.signingBytes envelope.data envelope.timestamp)
      envelope.signature = true →
    (w.outsider envelope.sender ∧ ∀ topic rnum addr aliasName services invitor,
      (wireFormats signature).readMessage envelope.data =
        some (.invited topic rnum addr aliasName services invitor) → w.knows topic rnum) ∨
    ∃ secretKey message timestamp, .sealed secretKey message timestamp ∈ sent ∧
      envelope.signature = scheme.sign secretKey
        (Envelope.signingBytes ((wireFormats signature).writeMessage message) timestamp)

def WireInjects (sent : List (Packet SecretKey)) (packet : Packet SecretKey) : Prop :=
  ∃ bytes, packet = .raw bytes ∧ w.Unforged scheme signature sent bytes

/-- Any bytes under way may be received, any number of times. -/
def WireAllows (sent : List (Packet SecretKey)) (m : WireMachine scheme) : WireEvent scheme → Prop
  | .direct bytes env reply | .gossip bytes env reply =>
    (∃ packet ∈ sent, packet.bytes scheme signature = some bytes) ∧ w.Prompt env reply
  | e => w.Allows (sent.filterMap (Packet.means scheme signature)) m.plain (e.plain signature)

end Surroundings

/-! Packets and items. -/

section Means
variable {w : Surroundings} {scheme : SignatureScheme SecretKey Signature} (hideal : scheme.Ideal)
  (signature : Format Signature) {sent : List (Packet SecretKey)} {bytes : List UInt8}
  {signed : SignedMessage}
include hideal

theorem means_sealed (secretKey : SecretKey) (message : Message) (timestamp : UInt64) :
    (Packet.sealed secretKey message timestamp).means scheme signature =
      some (.signed ⟨scheme.publicKey secretKey, message.carried, timestamp.toNat⟩) := by
  simp only [Packet.means, Packet.bytes, Option.bind_some, received,
    decodeAndVerify_carried hideal, Option.map_some]

theorem Surroundings.Unforged.received (h : w.Unforged scheme signature sent bytes)
    (hreceived : received scheme signature bytes = some signed) :
    w.Foreign signed ∨ ∃ packet ∈ sent, packet.means scheme signature = some (.signed signed) := by
  obtain ⟨envelope, hdecode, hopened⟩ := Option.bind_eq_some_iff.mp hreceived
  obtain ⟨⟨sender, message⟩, hverified, rfl⟩ := Option.map_eq_some_iff.mp hopened
  have hverify := Envelope.verify_of_verifyAndDecodeMessage (Option.isSome_of_eq_some hverified)
  rw [Envelope.verifyAndDecodeMessage, if_pos hverify] at hverified
  obtain ⟨_, hread, hpair⟩ := Option.map_eq_some_iff.mp hverified
  obtain ⟨rfl, rfl⟩ := Prod.mk.inj hpair
  rcases h envelope hdecode hverify with ⟨houtsider, hknows⟩ | ⟨secretKey, original, timestamp,
    hsent, hsignature⟩
  · left
    refine ⟨houtsider, fun topic rnum addr aliasName services invitor heq => ?_⟩
    exact hknows topic rnum addr aliasName services invitor (hread.trans (congrArg some heq))
  · right
    rw [hsignature] at hverify
    obtain ⟨hsender, hbytes⟩ := hideal.binds _ _ _ _ hverify
    obtain ⟨hdata, htime⟩ := Envelope.signingBytes_injective hbytes
    refine ⟨_, hsent, ?_⟩
    rw [hdata, readMessage_writeMessage] at hread
    obtain rfl := Option.some.inj hread
    rw [means_sealed hideal, hsender, htime]

end Means
/-! A turn of the network in bytes is one of the network of signed messages. -/

section Simulation
variable {w : Surroundings} {scheme : SignatureScheme SecretKey Signature}
  {signature : Format Signature} {sent : List Item} {packets : List (Packet SecretKey)}

theorem Displayed.subset {sent' : List Item} (hsub : sent ⊆ sent') {ticket : Ticket}
    (h : Displayed sent ticket) : Displayed sent' ticket := by
  obtain ⟨me, shown, hmem, hshown⟩ := h
  exact ⟨me, shown, hsub hmem, hshown⟩

theorem Surroundings.Allows.subset {sent' : List Item} (hsub : sent ⊆ sent') {m : Machine}
    {e : MachineEvent} (h : w.Allows sent m e) : w.Allows sent' m e := by
  cases e with
  | boot platform start hostsFile env =>
    obtain ⟨hstorage, hdaemon, hmember, hsecret, hdisplayed⟩ := h
    exact ⟨hstorage, hdaemon, hmember, hsecret, fun text ticket htext hparse =>
      (hdisplayed text ticket htext hparse).subset hsub⟩
  | bootFailed disk => exact h
  | loop e =>
    intro r hr
    obtain ⟨hreceived, hadded⟩ := h r hr
    refine ⟨fun signed env reply hreceives => ?_, ?_⟩
    · obtain ⟨hsent, hprompt⟩ := hreceived signed env reply hreceives
      exact ⟨hsub hsent, hprompt⟩
    · intro client text env responded shutdown heq ticket hparse htopic
      exact (hadded client text env responded shutdown heq ticket hparse htopic).subset hsub
  | crash => trivial

variable (signature) in
theorem means_emitted (hideal : scheme.Ideal) {secretKey : SecretKey} {id : EndpointId}
    (howned : scheme.publicKey secretKey = id) (emitted : List Emission) (item : Item) :
    item ∈ emitted.map (·.sealed id) ↔
      ∃ packet ∈ emitted.map fun em => Packet.sealed secretKey em.message (.ofNat em.timestamp),
        packet.means scheme signature = some item := by
  simp only [List.mem_map, exists_exists_and_eq_and, means_sealed hideal, howned,
    Option.some.injEq]
  rfl

theorem WireMachine.turn_plain (hideal : scheme.Ideal) (m : WireMachine scheme) (e : LoopEvent) :
    (m.plain.act (.loop e)).1 = (m.turn e).1.plain ∧
      ∀ item, item ∈ (m.plain.act (.loop e)).2 ↔
        ∃ packet ∈ (m.turn e).2, packet.means scheme signature = some item := by
  cases hr : m.running with
  | none =>
    have hoff : m.plain.running = none := by rw [WireMachine.plain, hr, Option.map_none]
    simp [WireMachine.turn, Machine.act, hr, hoff]
  | some r =>
    have hon : m.plain.running = some r.running := by rw [WireMachine.plain, hr, Option.map_some]
    rw [Machine.act_loop hon, WireMachine.turn]
    simp only [hr]
    exact ⟨rfl, means_emitted signature hideal r.owned _⟩

theorem receives_allowed
    (hsent : ∀ item, item ∈ sent ↔ ∃ packet ∈ packets, packet.means scheme signature = some item)
    {bytes : List UInt8} (hbytes : ∃ packet ∈ packets, packet.bytes scheme signature = some bytes)
    {signed : SignedMessage} (hreceived : received scheme signature bytes = some signed) :
    .signed signed ∈ sent := by
  obtain ⟨packet, hmem, hbytes⟩ := hbytes
  refine (hsent _).mpr ⟨packet, hmem, ?_⟩
  cases packet with
  | booted me ticket => contradiction
  | sealed secretKey message timestamp => simp [Packet.means, hbytes, hreceived]
  | raw bytes' => simp [Packet.means, hbytes, hreceived]

variable (w) in
/-- Daemons that exchange bytes do what daemons that exchange signed messages do. -/
theorem wire_simulates (hideal : scheme.Ideal) :
    Networks.Simulates Machine.act w.Allows w.Injects (WireMachine.act signature)
      (w.WireAllows scheme signature) (w.WireInjects scheme signature) WireMachine.plain
      (WireEvent.plain signature) (Packet.means scheme signature) where
  acts packets m e _ := by
    cases e with
    | boot platform start hostsFile env secretKey owned =>
      refine ⟨rfl, fun item => ?_⟩
      have hbooted : item = .booted start.ctx.me start.ctx.ticket ↔
          (Packet.booted start.ctx.me start.ctx.ticket : Packet SecretKey).means scheme signature =
            some item := by
        rw [Packet.means, Option.some.injEq, eq_comm]
      simp only [WireEvent.plain, Machine.act, WireMachine.act, List.mem_cons, exists_eq_or_imp,
        ← hbooted, means_emitted signature hideal owned]
    | bootFailed disk => exact ⟨rfl, by simp [WireEvent.plain, Machine.act, WireMachine.act]⟩
    | direct bytes env reply => exact WireMachine.turn_plain hideal m _
    | gossip bytes env reply => exact WireMachine.turn_plain hideal m _
    | loop e _ => exact WireMachine.turn_plain hideal m e
    | crash => exact ⟨rfl, by simp [WireEvent.plain, Machine.act, WireMachine.act]⟩
  allowed sent packets m e hsent hallows := by
    cases e with
    | direct bytes env reply =>
      obtain ⟨hbytes, hprompt⟩ := hallows
      refine fun r _ => ⟨fun signed env' reply' hreceives => ?_, by simp⟩
      rcases hreceives with heq | heq
      · obtain ⟨hreceived, rfl, rfl⟩ := LoopEvent.spRecv.inj heq
        exact ⟨receives_allowed hsent hbytes hreceived, hprompt⟩
      · contradiction
    | gossip bytes env reply =>
      obtain ⟨hbytes, hprompt⟩ := hallows
      refine fun r _ => ⟨fun signed env' reply' hreceives => ?_, by simp⟩
      rcases hreceives with heq | heq
      · contradiction
      · obtain ⟨hreceived, rfl, rfl⟩ := GossipEvent.received.inj (LoopEvent.gosRecv.inj heq)
        exact ⟨receives_allowed hsent hbytes hreceived, hprompt⟩
    | bootFailed disk => exact hallows
    | crash => trivial
    | boot | loop =>
      refine Surroundings.Allows.subset (fun item hitem => ?_) hallows
      obtain ⟨packet, hmem, hmeans⟩ := List.mem_filterMap.mp hitem
      exact (hsent item).mpr ⟨packet, hmem, hmeans⟩
  injects sent packets packet item hsent hinjects hmeans := by
    obtain ⟨bytes, rfl, hunforged⟩ := hinjects
    obtain ⟨signed, hreceived, rfl⟩ := Option.map_eq_some_iff.mp hmeans
    rcases hunforged.received hideal signature hreceived with hforeign | ⟨packet, hmem, hmeans⟩
    · exact .inr ⟨signed, rfl, hforeign⟩
    · exact .inl ((hsent _).mpr ⟨packet, hmem, hmeans⟩)

end Simulation
section Run
variable (ι : Type) (scheme : SignatureScheme SecretKey Signature)

def WireNetwork.blank : Networks.Config ι (WireMachine scheme) (Packet SecretKey) :=
  ⟨fun _ => .off .clear, []⟩

variable {ι} [DecidableEq ι] (signature : Format Signature)
  (turns : List (Networks.Turn ι (WireEvent scheme) (Packet SecretKey)))

def WireNetwork.after : Networks.Config ι (WireMachine scheme) (Packet SecretKey) :=
  Runs.exec (Networks.Config.step (WireMachine.act signature)) (blank ι scheme) turns

def Surroundings.WireRun (w : Surroundings) : Prop :=
  Runs.Along (Networks.Config.step (WireMachine.act signature))
    (Networks.Config.Allows (w.WireAllows scheme signature) (w.WireInjects scheme signature))
    (WireNetwork.blank ι scheme) turns

end Run

namespace Sample

/-! Dave's lie and bob's join reach alice as bytes. -/

def openSignature : Format (EndpointId × List UInt8) := endpointIdFormat.pair byteSeq

def sealedBytes (id : EndpointId) (message : Message) (timestamp : UInt64) : List UInt8 :=
  Envelope.signAndEncodeWithTimestamp openScheme (wireFormats openSignature) id message timestamp

def packetTurns : List (Networks.Turn Bool (WireEvent openScheme) (Packet EndpointId)) :=
  [.acts false (.boot onTerminal alicesStart [] (launchReadings alice 1 1000) alice rfl),
    .acts true (.boot onTerminal bobsStart [] (launchReadings bob 2 1005) bob rfl),
    .injects (.raw (sealedBytes dave davesLie.message 1005)),
    .acts false (.direct (sealedBytes dave davesLie.message 1005) (readings 1006)
      (replies alice 1 1006)),
    .acts false (.gossip (sealedBytes bob bobsJoin 1005) (readings 1006) (replies alice 1 1006))]

theorem lie_unforged (sent : List (Packet EndpointId)) :
    surroundings.Unforged openScheme openSignature sent
      (sealedBytes dave davesLie.message 1005) := by
  intro envelope hdecode _
  rw [sealedBytes, Envelope.decode_signAndEncode] at hdecode
  obtain rfl := Option.some.inj hdecode
  refine .inl ⟨rfl, ?_⟩
  rw [readMessage_writeMessage]
  simp [Message.carried, Message.toWire, Message.ofWire, davesLie]

theorem packets_run : surroundings.WireRun openScheme openSignature packetTurns := by
  refine ⟨?_, ?_, ⟨_, rfl, lie_unforged _⟩, ?_, ?_, trivial⟩
  · exact ⟨rfl, rfl, (by decide : alice ≠ dave), id, by simp [alicesStart, args]⟩
  · refine ⟨rfl, rfl, (by decide : bob ≠ dave), id, ?_⟩
    intro text ticket htext hparse
    obtain rfl := Option.some.inj htext
    obtain rfl := Except.ok.inj (alicesTicket_parses.symm.trans hparse)
    exact ⟨_, alicesTicket, List.mem_cons_self, rfl, rfl, rfl⟩
  · exact ⟨⟨_, List.mem_append_right _ List.mem_cons_self, rfl⟩, le_rfl, le_rfl, le_rfl, by decide⟩
  · refine ⟨⟨.sealed bob bobsJoin 1005, ?_, rfl⟩, le_rfl, le_rfl, le_rfl, by decide⟩
    exact List.mem_append_left _ (List.mem_append_left _ (List.mem_append_right _
      (List.mem_cons_of_mem _ List.mem_cons_self)))

end Sample

section Refinement
variable {scheme : SignatureScheme SecretKey Signature} {signature : Format Signature}
  {w : Surroundings} {ι : Type} [DecidableEq ι]
  {turns : List (Networks.Turn ι (WireEvent scheme) (Packet SecretKey))}

/-- Every run in bytes is one of signed messages: the same machines, and the messages the bytes
under way are received as. -/
theorem bytes_refine_messages (hideal : scheme.Ideal) (hrun : w.WireRun scheme signature turns) :
    ∃ turns' : List (NetworkTurn ι), w.Run turns' ∧
      Networks.Represents WireMachine.plain (Packet.means scheme signature)
        (WireNetwork.after scheme signature turns) (Network.after turns') := by
  refine (wire_simulates w hideal).run ⟨fun i => rfl, fun item => ?_⟩ hrun
  simp [Network.blank, WireNetwork.blank]

theorem bytes_refine_messages_alice :
    ∃ turns' : List (NetworkTurn Bool), Sample.surroundings.Run turns' ∧
      Networks.Represents WireMachine.plain (Packet.means Sample.openScheme Sample.openSignature)
        (WireNetwork.after Sample.openScheme Sample.openSignature Sample.packetTurns)
        (Network.after turns') :=
  bytes_refine_messages Sample.openScheme_ideal Sample.packets_run

end Refinement
end P2pDdns
