import P2pDdns.Messages

/-!
The database of a daemon. A write transaction either applies or fails without
effect; `fault` is the error it fails with, if it does.
-/

set_option autoImplicit false

namespace P2pDdns
open Std

/-- The `secret`, `config` and `nodes` tables. The secret key is known by its public
key; the nodes table is keyed by the text of the record's `node_id`, one text to an id. -/
structure Storage where
  secret : Option EndpointId
  topic : Option TopicId
  ticketRnum : Option (List UInt8)
  nodes : DashMap EndpointId Node
  deriving DecidableEq

namespace Storage

def clear : Storage := ⟨none, none, none, ∅⟩

def loadNodes (storage : Storage) : List Node := storage.nodes.toList.map (·.2)

def transact (fault : Option String) (written : Storage) : Except String Storage :=
  match fault with
  | some e => .error e
  | none => .ok written

def saveNode (storage : Storage) (node : Node) (fault : Option String) : Except String Storage :=
  transact fault { storage with nodes := storage.nodes.insert node.nodeId node }

def batchSaveNodes (storage : Storage) (nodes : List Node) (fault : Option String) :
    Except String Storage :=
  transact fault { storage with nodes := FiniteMaps.insertAll (·.nodeId) storage.nodes nodes }

def removeNode (storage : Storage) (peerId : EndpointId) (fault : Option String) :
    Except String Storage :=
  transact fault { storage with nodes := storage.nodes.erase peerId }

end Storage

/-- One `save_config` transaction of a start. -/
inductive ConfigWrite where
  | topic : TopicId → ConfigWrite
  | ticketRnum : List UInt8 → ConfigWrite
  deriving DecidableEq

def Storage.saveConfig (storage : Storage) : ConfigWrite → Storage
  | .topic topic => { storage with topic := some topic }
  | .ticketRnum rnum => { storage with ticketRnum := some rnum }

end P2pDdns
