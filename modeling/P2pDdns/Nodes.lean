import P2pDdns.Addresses
import P2pDdns.FiniteMaps

/-!
The record a daemon keeps about a node. Heartbeats are seconds in a u64; the
program compares them and subtracts with `saturating_sub`, which is subtraction
of naturals, so they are naturals here.
-/

set_option autoImplicit false

namespace P2pDdns
open Std

def SERVICE_MARKER_CLIENT : String := "_p2p_ddns_client"

def SERVICE_VALUE_CLIENT : UInt32 := 1

structure Node where
  nodeId : EndpointId
  invitor : EndpointId
  addr : EndpointAddr
  domain : String
  services : ExtTreeMap String UInt32
  lastHeartbeat : Nat
  deriving DecidableEq

def isDaemonNode (node : Node) : Bool := !node.services.contains SERVICE_MARKER_CLIENT

theorem isDaemonNode_iff {node : Node} :
    isDaemonNode node = true ↔ SERVICE_MARKER_CLIENT ∉ node.services := by
  rw [isDaemonNode, ExtTreeMap.mem_iff_contains, Bool.not_eq_true, Bool.not_eq_true']

def withoutAddr (node : Node) : Node := { node with addr := .new node.nodeId }

/-- Rust's `DashMap`: a hash map with no promise about the order of its iterator. -/
abbrev DashMap (κ ν : Type) [Ord κ] := ExtTreeMap κ ν

structure IterOrder where
  walk : DashMap EndpointId Node → List (EndpointId × Node)
  perm : ∀ m, (walk m).Perm m.toList

namespace IterOrder

@[simp] theorem mem_walk (iter : IterOrder) {m : DashMap EndpointId Node}
    {id : EndpointId} {node : Node} : (id, node) ∈ iter.walk m ↔ m[id]? = some node := by
  rw [(iter.perm m).mem_iff, ExtTreeMap.mem_toList_iff_getElem?_eq_some]

theorem walk_keys_nodup (iter : IterOrder) (m : DashMap EndpointId Node) :
    ((iter.walk m).map (·.1)).Nodup := by
  refine ((iter.perm m).map _).nodup_iff.mpr (List.pairwise_map.mpr ?_)
  refine ExtTreeMap.distinct_keys_toList.imp fun {a b} h => ?_
  rwa [LawfulEqOrd.compare_eq_iff_eq] at h

def byId : IterOrder := ⟨fun m => m.toList, fun _ => .rfl⟩

end IterOrder
end P2pDdns
