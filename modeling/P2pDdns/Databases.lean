import P2pDdns.EncodedMaps
import P2pDdns.MessageFormats

/-!
The database file: tables of text and bytes. Its transactions and loads keep to the contents they
stand for, the records as far as they are on the wire.
-/

set_option autoImplicit false

namespace P2pDdns
open Std FiniteMaps WireFormats EncodedMaps

abbrev SecretKey := { bytes : List UInt8 // bytes.length = 32 }

/-- Keys as the libraries treat them: the public key of a secret one, and the text of an id,
which is no other's. -/
structure Keys (codecs : Codecs) where
  publicKey : SecretKey → EndpointId
  text_injective : Function.Injective codecs.endpointIdToString

inductive LoadError where
  | base64
  | keyLength
  | postcard
  deriving DecidableEq

/-- The tables `nodes`, `secret` and `config`; one that no transaction has opened is not there. -/
structure Database where
  nodes : Option (ExtTreeMap String (List UInt8))
  secret : Option (ExtTreeMap String String)
  config : Option (ExtTreeMap String (List UInt8))

inductive Transaction where
  | clear
  | saveSecret (sk : SecretKey)
  | saveBindPort (port : UInt16)
  | saveConfig (write : ConfigWrite)
  | saveNode (node : Node)
  | batchSaveNodes (nodes : List Node)
  | removeNode (peerId : EndpointId)

def readNode (bytes : List UInt8) : Option Node := (nodeFieldsFormat.decode bytes).map Node.ofWire

namespace Database

def empty : Database := ⟨none, none, none⟩

section Functions
variable {codecs : Codecs} (keys : Keys codecs) (db : Database)

/-- From the first entry on, which is all of them. -/
def loadNodes : Except LoadError (List Node) :=
  match db.nodes with
  | none => .ok []
  | some table =>
    table.toList.mapM fun entry => (readNode entry.2).elim (Except.error .postcard) Except.ok

def insertNode (codecs : Codecs) (table : ExtTreeMap String (List UInt8)) (node : Node) :
    ExtTreeMap String (List UInt8) :=
  table.insert (codecs.endpointIdToString node.nodeId) (nodeFieldsFormat.write node.toWire)

def saveNode (codecs : Codecs) (node : Node) : Database :=
  { db with nodes := some (insertNode codecs (db.nodes.getD ∅) node) }

def batchSaveNodes (codecs : Codecs) (nodes : List Node) : Database :=
  { db with nodes := some (nodes.foldl (insertNode codecs) (db.nodes.getD ∅)) }

def removeNode (codecs : Codecs) (peerId : EndpointId) : Database :=
  { db with nodes := some ((db.nodes.getD ∅).erase (codecs.endpointIdToString peerId)) }

def saveSecret (sk : SecretKey) : Database :=
  { db with secret := some ((db.secret.getD ∅).insert "sk" (Base64.encode sk.val)) }

def loadSecret : Except LoadError (Option (EndpointId × SecretKey)) :=
  match db.secret with
  | none => .ok none
  | some table =>
    match table["sk"]? with
    | none => .ok none
    | some text =>
      match Base64.decode text with
      | none => .error .base64
      | some bytes =>
        if h : bytes.length = 32 then .ok (some (keys.publicKey ⟨bytes, h⟩, ⟨bytes, h⟩))
        else .error .keyLength

/-- `save_config` and `save_config_trival`. -/
def saveConfig {α : Type} (format : Format α) (key : String) (value : α) : Database :=
  { db with config := some ((db.config.getD ∅).insert key (format.write value)) }

def loadConfig {α : Type} (format : Format α) (key : String) : Except LoadError (Option α) :=
  match db.config with
  | none => .ok none
  | some table =>
    match table[key]? with
    | none => .ok none
    | some bytes =>
      match format.decode bytes with
      | none => .error .postcard
      | some value => .ok (some value)

def clear : Database := empty

def perform (codecs : Codecs) (db : Database) : Transaction → Database
  | .clear => clear
  | .saveSecret sk => db.saveSecret sk
  | .saveBindPort port => db.saveConfig u16 "bind_port" port
  | .saveConfig (.topic topic) => db.saveConfig topicIdFormat "topic" topic
  | .saveConfig (.ticketRnum rnum) => db.saveConfig byteSeq "ticket_rnum" rnum
  | .saveNode node => db.saveNode codecs node
  | .batchSaveNodes nodes => db.batchSaveNodes codecs nodes
  | .removeNode peerId => db.removeNode codecs peerId

end Functions
end Database

/-! Records as the database gives them back. -/

theorem readNode_write (node : Node) :
    readNode (nodeFieldsFormat.write node.toWire) = some node.carried := by
  rw [readNode, Format.decode_write]
  rfl

@[simp] theorem Node.carried_nodeId (node : Node) : node.carried.nodeId = node.nodeId := rfl

theorem EndpointAddr.ofWire_toWire_ofWire (fields : EndpointFields) :
    EndpointAddr.ofWire (EndpointAddr.ofWire fields).toWire = EndpointAddr.ofWire fields := by
  refine EndpointAddr.ofWire_toWire_iff.mpr fun sock hsock => ?_
  rw [EndpointAddr.ofWire, EndpointAddr.mem_fromParts, List.mem_map] at hsock
  obtain ⟨t, -, ht⟩ := hsock
  cases t with
  | inl url => contradiction
  | inr parts =>
    obtain rfl := TransportAddr.ip.inj ht
    exact SocketAddr.ofWire_unlabelled parts

theorem Node.carried_ofWire (fields : NodeFields) : (Node.ofWire fields).carried = .ofWire fields := by
  simp only [Node.carried, Node.toWire, Node.ofWire, EndpointAddr.ofWire_toWire_ofWire,
    UInt64.ofNat_toNat]

/-! What the tables stand for. -/

/-- The contents of a database; the records are as they are read. -/
structure Contents where
  secretKey : Option SecretKey
  bindPort : Option UInt16
  topic : Option TopicId
  ticketRnum : Option (List UInt8)
  nodes : DashMap EndpointId Node

namespace Contents

def empty : Contents := ⟨none, none, none, none, ∅⟩

def insertNode (nodes : DashMap EndpointId Node) (node : Node) : DashMap EndpointId Node :=
  nodes.insert node.nodeId node.carried

def saveConfig (c : Contents) : ConfigWrite → Contents
  | .topic topic => { c with topic := some topic }
  | .ticketRnum rnum => { c with ticketRnum := some rnum }

def perform (c : Contents) : Transaction → Contents
  | .clear => empty
  | .saveSecret sk => { c with secretKey := some sk }
  | .saveBindPort port => { c with bindPort := some port }
  | .saveConfig write => c.saveConfig write
  | .saveNode node => { c with nodes := insertNode c.nodes node }
  | .batchSaveNodes nodes => { c with nodes := nodes.foldl insertNode c.nodes }
  | .removeNode peerId => { c with nodes := c.nodes.erase peerId }

def storage {codecs : Codecs} (c : Contents) (keys : Keys codecs) : Storage :=
  ⟨c.secretKey.map keys.publicKey, c.topic, c.ticketRnum, c.nodes⟩

end Contents

/-- Every table of the database holds what the contents say. -/
structure Holds (codecs : Codecs) (db : Database) (c : Contents) : Prop where
  nodes : Reads codecs.endpointIdToString readNode (db.nodes.getD ∅) c.nodes
  secret : (db.secret.getD ∅)["sk"]? = c.secretKey.map fun sk => Base64.encode sk.val
  bindPort : (db.config.getD ∅)["bind_port"]? = c.bindPort.map u16.write
  topic : (db.config.getD ∅)["topic"]? = c.topic.map topicIdFormat.write
  ticketRnum : (db.config.getD ∅)["ticket_rnum"]? = c.ticketRnum.map byteSeq.write
  keyed : ∀ (id : EndpointId) (node : Node), c.nodes[id]? = some node → node.nodeId = id

section Holds
variable {codecs : Codecs} {db : Database} {c : Contents}

theorem holds_empty (codecs : Codecs) : Holds codecs .empty .empty where
  nodes := .empty _ _
  secret := by simp [Database.empty, Contents.empty]
  bindPort := by simp [Database.empty, Contents.empty]
  topic := by simp [Database.empty, Contents.empty]
  ticketRnum := by simp [Database.empty, Contents.empty]
  keyed id node h := by simp [Contents.empty] at h

theorem keyed_insertAll {nodes : DashMap EndpointId Node}
    (h : ∀ (id : EndpointId) (node : Node), nodes[id]? = some node → node.nodeId = id)
    (news : List Node) :
    ∀ (id : EndpointId) (node : Node),
      (news.foldl Contents.insertNode nodes)[id]? = some node → node.nodeId = id := by
  induction news generalizing nodes with
  | nil => exact h
  | cons new news ih => exact ih (forall_insert h rfl)

theorem Holds.perform (keys : Keys codecs) (h : Holds codecs db c) (w : Transaction) :
    Holds codecs (db.perform codecs w) (c.perform w) := by
  have hnodes := h.nodes
  cases w with
  | clear => exact holds_empty codecs
  | saveSecret sk =>
    exact ⟨h.nodes, getElem?_insert_self _ _ _, h.bindPort, h.topic, h.ticketRnum, h.keyed⟩
  | saveBindPort port =>
    exact ⟨h.nodes, h.secret, getElem?_insert_self _ _ _,
      (getElem?_insert_ne _ _ (by decide)).trans h.topic,
      (getElem?_insert_ne _ _ (by decide)).trans h.ticketRnum, h.keyed⟩
  | saveConfig write =>
    cases write with
    | topic topic =>
      exact ⟨h.nodes, h.secret, (getElem?_insert_ne _ _ (by decide)).trans h.bindPort,
        getElem?_insert_self _ _ _, (getElem?_insert_ne _ _ (by decide)).trans h.ticketRnum,
        h.keyed⟩
    | ticketRnum rnum =>
      exact ⟨h.nodes, h.secret, (getElem?_insert_ne _ _ (by decide)).trans h.bindPort,
        (getElem?_insert_ne _ _ (by decide)).trans h.topic, getElem?_insert_self _ _ _, h.keyed⟩
  | saveNode node =>
    exact ⟨h.nodes.insert keys.text_injective (readNode_write node), h.secret, h.bindPort, h.topic,
      h.ticketRnum, forall_insert h.keyed rfl⟩
  | batchSaveNodes nodes =>
    exact ⟨h.nodes.insertAll keys.text_injective readNode_write nodes, h.secret, h.bindPort, h.topic,
      h.ticketRnum, keyed_insertAll h.keyed nodes⟩
  | removeNode peerId =>
    exact ⟨h.nodes.erase keys.text_injective peerId, h.secret, h.bindPort, h.topic, h.ticketRnum,
      forall_erase h.keyed peerId⟩

/-! Every load succeeds and finds the contents. -/

theorem Holds.loadSecret (keys : Keys codecs) (h : Holds codecs db c) :
    db.loadSecret keys = .ok (c.secretKey.map fun sk => (keys.publicKey sk, sk)) := by
  have hsecret := h.secret
  unfold Database.loadSecret
  cases htable : db.secret with
  | none =>
    rw [htable] at hsecret
    cases hkey : c.secretKey with
    | none => rfl
    | some sk => simp [hkey] at hsecret
  | some table =>
    rw [htable, Option.getD_some] at hsecret
    simp only [hsecret]
    cases hkey : c.secretKey with
    | none => rfl
    | some sk => simp [Base64.decode_encode, sk.property]

theorem loadConfig_eq {α : Type} {format : Format α} {key : String} {value : Option α}
    (h : (db.config.getD ∅)[key]? = value.map format.write) :
    db.loadConfig format key = .ok value := by
  unfold Database.loadConfig
  cases htable : db.config with
  | none =>
    rw [htable] at h
    cases value with
    | none => rfl
    | some value => simp at h
  | some table =>
    rw [htable, Option.getD_some] at h
    simp only [h]
    cases value with
    | none => rfl
    | some value => simp [Format.decode_write]

theorem Holds.loadNodes (h : Holds codecs db c) :
    ∃ nodes, db.loadNodes = .ok nodes ∧
      ∀ node, node ∈ nodes ↔ ∃ id : EndpointId, c.nodes[id]? = some node := by
  have hnodes := h.nodes
  unfold Database.loadNodes
  cases htable : db.nodes with
  | none =>
    rw [htable, Option.getD_none] at hnodes
    have hnone : c.nodes = ∅ := hnodes.unique (.empty _ _)
    exact ⟨[], rfl, fun node => by simp [hnone]⟩
  | some table =>
    rw [htable, Option.getD_some] at hnodes
    exact hnodes.values LoadError.postcard

theorem Holds.collectNodes (h : Holds codecs db c) {nodes : List Node}
    (hnodes : db.loadNodes = .ok nodes) : collectNodes nodes = c.nodes := by
  obtain ⟨nodes', hnodes', hmem⟩ := h.loadNodes
  obtain rfl := Except.ok.inj (hnodes.symm.trans hnodes')
  exact insertAll_values h.keyed hmem

end Holds
end P2pDdns
