import P2pDdns.Emissions
import P2pDdns.MessageFormats
import P2pDdns.Networks
import P2pDdns.TableRecords

/-!
Machines that run daemons of one or more networks, and what passes between them: envelopes, and
the tickets daemons display. Other ids may send envelopes too. A machine keeps its database when
its process ends, and may start again on it.
-/

set_option autoImplicit false

namespace P2pDdns
open Std FiniteMaps Relation

/-- What becomes known: the record and the ticket a process starts with, and signed messages. -/
inductive Item where
  | booted (me : Node) (ticket : Ticket)
  | signed (signed : SignedMessage)

/-- A message as it arrives; the time has 64 bits. -/
def Emission.sealed (em : Emission) (sender : EndpointId) : Item :=
  .signed ⟨sender, em.message.carried, em.timestamp % UInt64.size⟩

structure Running where
  platform : Platform
  process : Process

def Running.ctx (r : Running) : Context := r.process.daemon.ctx

structure Machine where
  disk : Storage
  running : Option Running

/-- A start that fails or is cut off may have written its key and its ticket to the database, or
have cleared it. -/
inductive MachineEvent where
  | boot (platform : Platform) (start : Start platform.codecs) (hostsFile : List UInt8)
      (env : LaunchReadings)
  | bootFailed (disk : Storage)
  | loop (e : LoopEvent)
  | crash

namespace Machine

def off (disk : Storage) : Machine := ⟨disk, none⟩

def on (platform : Platform) (p : Process) : Machine :=
  ⟨p.daemon.ctx.storage, some ⟨platform, p⟩⟩

def act (m : Machine) : MachineEvent → Machine × List Item
  | .boot platform start hostsFile env =>
    let (p, emitted) := start.launch platform hostsFile env
    (on platform p, .booted start.ctx.me start.ctx.ticket ::
      emitted.map (·.sealed start.ctx.me.nodeId))
  | .bootFailed disk => (off disk, [])
  | .loop e =>
    match m.running with
    | none => (m, [])
    | some r =>
      let (p, emitted) := r.process.step r.platform e
      (on r.platform p, emitted.map (·.sealed r.ctx.me.nodeId))
  | .crash => (off m.disk, [])

theorem act_loop {m : Machine} {r : Running} (h : m.running = some r) (e : LoopEvent) :
    m.act (.loop e) = (on r.platform (r.process.step r.platform e).1,
      (r.process.step r.platform e).2.map (·.sealed r.ctx.me.nodeId)) := by
  simp only [act, h]

end Machine

abbrev Network (ι : Type) := Networks.Config ι Machine Item

abbrev NetworkTurn (ι : Type) := Networks.Turn ι MachineEvent Item

def Network.blank (ι : Type) : Network ι := ⟨fun _ => .off .clear, []⟩

def Member (sent : List Item) (id : EndpointId) : Prop :=
  ∃ me ticket, .booted me ticket ∈ sent ∧ me.nodeId = id

/-- A ticket as a daemon displays it; its text may lose a part of an address. -/
def Displayed (sent : List Item) (ticket : Ticket) : Prop :=
  ∃ me shown, .booted me shown ∈ sent ∧ shown.topic = ticket.topic ∧ shown.rnum = ticket.rnum ∧
    ticket.invitor = { shown.invitor with addr := ticket.invitor.addr }

/-- What is taken for granted: who is no member and which tickets they know of, and the seconds
that may pass while one message is handled. -/
structure Surroundings where
  outsider : EndpointId → Prop
  knows : TopicId → List UInt8 → Prop
  lag : Nat

namespace Surroundings
variable (w : Surroundings)

/-- An outsider signs what it likes, but cannot write down a ticket it does not know. -/
structure Foreign (signed : SignedMessage) : Prop where
  outsider : w.outsider signed.sender
  knows : ∀ topic rnum addr aliasName services invitor,
    signed.message = .invited topic rnum addr aliasName services invitor → w.knows topic rnum

def Injects (_ : List Item) (item : Item) : Prop :=
  ∃ signed, item = .signed signed ∧ w.Foreign signed

/-- The clock of a machine may show any time, but not run far while a message is handled. -/
structure Prompt (env : Readings) (reply : SendReadings) : Prop where
  refresh : env.refreshNow ≤ env.verifyNow + w.lag
  incoming : env.incomingNow ≤ env.verifyNow + w.lag
  answer : env.replyNow ≤ reply.signNow + w.lag
  representable : reply.signNow < UInt64.size

/-- Only what was signed is received, and tickets are handed over as displayed. -/
def AllowsLoop (sent : List Item) (r : Running) (e : LoopEvent) : Prop :=
  (∀ signed env reply, e.Receives signed env reply → .signed signed ∈ sent ∧ w.Prompt env reply) ∧
  ∀ client text env responded shutdown,
    e = .command client (.addNode text) env responded shutdown →
    ∀ ticket, Ticket.fromStr r.platform.codecs text = .ok ticket →
      ticket.topic = r.ctx.ticket.topic → Displayed sent ticket

def Allows (sent : List Item) (m : Machine) : MachineEvent → Prop
  | .boot platform start _ _ =>
    start.storage = m.disk ∧ start.args.daemon = true ∧ ¬ w.outsider start.ctx.me.nodeId ∧
      ¬ w.knows start.ctx.ticket.topic start.ctx.ticket.rnum ∧
      ∀ text ticket, start.args.ticket = some text →
        Ticket.fromStr platform.codecs text = .ok ticket → Displayed sent ticket
  | .bootFailed disk => disk.nodes = m.disk.nodes ∨ disk.nodes = ∅
  | .loop e => ∀ r, m.running = some r → w.AllowsLoop sent r e
  | .crash => True

def Run {ι : Type} [DecidableEq ι] (turns : List (NetworkTurn ι)) : Prop :=
  Runs.Along (Networks.Config.step Machine.act) (Networks.Config.Allows w.Allows w.Injects)
    (Network.blank ι) turns

end Surroundings

def Network.after {ι : Type} [DecidableEq ι] (turns : List (NetworkTurn ι)) : Network ι :=
  Runs.exec (Networks.Config.step Machine.act) (Network.blank ι) turns

/-! What is said about a member. -/

/-- The record says of a daemon what the daemon's own record says. -/
structure SameIdentity (node me : Node) : Prop where
  nodeId : me.nodeId = node.nodeId
  invitor : me.invitor = node.invitor
  domain : me.domain = node.domain
  services : me.services = node.services

/-- The time is not later than what the id itself has shown: the start of a process of it, or
the time in a message it signed and the age a message may reach. -/
def AliveAt (lag : Nat) (sent : List Item) (id : EndpointId) (t : Nat) : Prop :=
  (∃ me ticket, .booted me ticket ∈ sent ∧ me.nodeId = id ∧ t ≤ me.lastHeartbeat) ∨
  (∃ signed, .signed signed ∈ sent ∧ signed.sender = id ∧
    t ≤ signed.timestamp + MAX_AGE_SECS + lag)

structure Genuine (lag : Nat) (sent : List Item) (node : Node) : Prop where
  identity : ∃ me ticket, .booted me ticket ∈ sent ∧ SameIdentity node me
  alive : AliveAt lag sent node.nodeId node.lastHeartbeat

/-- What a member says about itself and about others. -/
def Truthful (lag : Nat) (sent : List Item) (sender : EndpointId) : Message → Prop
  | .invited _ _ _ aliasName services invitor | .aboutMe _ aliasName services invitor =>
    ∃ me ticket, .booted me ticket ∈ sent ∧ me.nodeId = sender ∧ me.invitor = invitor ∧
      me.domain = aliasName ∧ me.services = services
  | .syncRequest nodes | .syncResponse nodes => ∀ node ∈ nodes, Genuine lag sent node
  | .introduce _ | .heartbeat | .left => True

section Mono
variable {lag : Nat} {sent : List Item} {node : Node} (more : List Item)

theorem AliveAt.mono {id : EndpointId} {t : Nat} (h : AliveAt lag sent id t) :
    AliveAt lag (sent ++ more) id t := by
  rcases h with ⟨me, ticket, hmem, h⟩ | ⟨signed, hmem, h⟩
  · exact .inl ⟨me, ticket, List.mem_append_left more hmem, h⟩
  · exact .inr ⟨signed, List.mem_append_left more hmem, h⟩

theorem Genuine.mono (h : Genuine lag sent node) : Genuine lag (sent ++ more) node := by
  obtain ⟨⟨me, ticket, hmem, hsame⟩, halive⟩ := h
  exact ⟨⟨me, ticket, List.mem_append_left more hmem, hsame⟩, halive.mono more⟩

theorem Truthful.mono {sender : EndpointId} {message : Message}
    (h : Truthful lag sent sender message) : Truthful lag (sent ++ more) sender message := by
  cases message with
  | invited | aboutMe =>
    obtain ⟨me, ticket, hmem, hme⟩ := h
    exact ⟨me, ticket, List.mem_append_left more hmem, hme⟩
  | syncRequest nodes | syncResponse nodes => exact fun node hnode => (h node hnode).mono more
  | introduce _ | heartbeat | left => trivial

theorem Genuine.addressBlind : AddressBlind (Genuine lag sent) := by
  rintro node addr ⟨⟨me, ticket, hmem, hsame⟩, halive⟩
  exact ⟨⟨me, ticket, hmem, ⟨hsame.nodeId, hsame.invitor, hsame.domain, hsame.services⟩⟩, halive⟩

theorem AliveAt.earlier {id : EndpointId} {t t' : Nat} (h : AliveAt lag sent id t) (ht : t' ≤ t) :
    AliveAt lag sent id t' := by
  rcases h with ⟨me, ticket, hmem, hid, h⟩ | ⟨signed, hmem, hid, h⟩
  · exact .inl ⟨me, ticket, hmem, hid, by omega⟩
  · exact .inr ⟨signed, hmem, hid, by omega⟩

theorem Genuine.carried (h : Genuine lag sent node) : Genuine lag sent node.carried := by
  obtain ⟨⟨me, ticket, hmem, hsame⟩, halive⟩ := h
  exact ⟨⟨me, ticket, hmem, hsame.nodeId, hsame.invitor, hsame.domain, hsame.services⟩,
    halive.earlier (Nat.mod_le _ _)⟩

theorem Truthful.carried {sender : EndpointId} {message : Message}
    (h : Truthful lag sent sender message) : Truthful lag sent sender message.carried := by
  cases message with
  | syncRequest nodes | syncResponse nodes =>
    intro node hnode
    simp only [List.map_map, List.mem_map] at hnode
    obtain ⟨node, hnode, rfl⟩ := hnode
    exact (h node hnode).carried
  | invited | aboutMe => exact h
  | introduce _ | heartbeat | left => trivial

end Mono
end P2pDdns
