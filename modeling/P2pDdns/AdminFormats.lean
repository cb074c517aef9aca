import P2pDdns.Admin
import P2pDdns.RecordFormats

/-!
Requests and answers of the admin interface as bytes: structs field by field, variants behind the
number of their constructor.
-/

set_option autoImplicit false

namespace P2pDdns
open WireFormats

structure AdminCommandRequest where
  auth : AuthRequest
  command : ClientCommand
  deriving DecidableEq

def authRequestFormat : Format AuthRequest :=
  (text.pair ((optional text).pair (optional text))).iso
    (fun fields => ⟨fields.1, fields.2.1, fields.2.2⟩)
    (fun auth => (auth.ticket, auth.clientPublicKey, auth.clientName))
    (fun _ => rfl)

def authResponseFormat : Format AuthResponse :=
  (boolean.pair ((optional text).pair (optional text))).iso
    (fun fields => ⟨fields.1, fields.2.1, fields.2.2⟩)
    (fun auth => (auth.success, auth.error, auth.daemonPublicKey))
    (fun _ => rfl)

def clientCommandFormat : Format ClientCommand where
  write
    | .query => writeTag 0
    | .addNode ticket => writeTag 1 ++ text.write ticket
    | .removeNode id => writeTag 2 ++ text.write id
    | .status => writeTag 3
    | .getTicket => writeTag 4
    | .pause => writeTag 5
    | .resume => writeTag 6
    | .shutdown => writeTag 7
  read bytes :=
    match readTag bytes with
    | some (0, rest) => some (.query, rest)
    | some (1, rest) => (text.read rest).map fun found => (.addNode found.1, found.2)
    | some (2, rest) => (text.read rest).map fun found => (.removeNode found.1, found.2)
    | some (3, rest) => some (.status, rest)
    | some (4, rest) => some (.getTicket, rest)
    | some (5, rest) => some (.pause, rest)
    | some (6, rest) => some (.resume, rest)
    | some (7, rest) => some (.shutdown, rest)
    | _ => none
  read_write command rest := by
    cases command <;> simp [readTag_writeTag, List.append_assoc, text.read_write]

def adminCommandRequestFormat : Format AdminCommandRequest :=
  (authRequestFormat.pair clientCommandFormat).iso
    (fun fields => ⟨fields.1, fields.2⟩)
    (fun request => (request.auth, request.command))
    (fun _ => rfl)

def hostsSyncStatusFormat : Format HostsSyncStatus :=
  (boolean.pair ((optional text).pair (boolean.pair ((optional length).pair
    ((optional length).pair (optional text)))))).iso
    (fun fields => ⟨fields.1, fields.2.1, fields.2.2.1, fields.2.2.2.1, fields.2.2.2.2.1,
      fields.2.2.2.2.2⟩)
    (fun status => (status.enabled, status.path, status.cleanupOnShutdown, status.lastSuccess,
      status.lastCleanup, status.lastError))
    (fun _ => rfl)

def daemonStatusFormat : Format DaemonStatus :=
  (boolean.pair (boolean.pair (length.pair (length.pair (length.pair (text.pair
    (text.pair hostsSyncStatusFormat))))))).iso
    (fun fields => ⟨fields.1, fields.2.1, fields.2.2.1, fields.2.2.2.1, fields.2.2.2.2.1,
      fields.2.2.2.2.2.1, fields.2.2.2.2.2.2.1, fields.2.2.2.2.2.2.2⟩)
    (fun status => (status.running, status.paused, status.nodeCount, status.clientCount,
      status.uptimeSeconds, status.myDomain, status.myAddr, status.hostsSync))
    (fun _ => rfl)

/-! Answers, of which a list of records is the only part that may lose something on the wire. -/

inductive ClientResponseFields where
  | nodes (nodes : List NodeFields)
  | status (status : DaemonStatus)
  | ticket (ticket : String)
  | ack (message : String)
  | error (message : String)

def clientResponseFormat : Format ClientResponseFields where
  write
    | .nodes nodes => writeTag 0 ++ (sequence nodeFieldsFormat).write nodes
    | .status status => writeTag 1 ++ daemonStatusFormat.write status
    | .ticket ticket => writeTag 2 ++ text.write ticket
    | .ack message => writeTag 3 ++ text.write message
    | .error message => writeTag 4 ++ text.write message
  read bytes :=
    match readTag bytes with
    | some (0, rest) =>
      ((sequence nodeFieldsFormat).read rest).map fun found => (.nodes found.1, found.2)
    | some (1, rest) => (daemonStatusFormat.read rest).map fun found => (.status found.1, found.2)
    | some (2, rest) => (text.read rest).map fun found => (.ticket found.1, found.2)
    | some (3, rest) => (text.read rest).map fun found => (.ack found.1, found.2)
    | some (4, rest) => (text.read rest).map fun found => (.error found.1, found.2)
    | _ => none
  read_write response rest := by
    cases response <;>
      simp [readTag_writeTag, List.append_assoc, text.read_write,
        (sequence nodeFieldsFormat).read_write, daemonStatusFormat.read_write]

namespace ClientResponse

def toWire : ClientResponse → ClientResponseFields
  | .nodes found => .nodes (found.map Node.toWire)
  | .status found => .status found
  | .ticket text => .ticket text
  | .ack message => .ack message
  | .error message => .error message

def ofWire : ClientResponseFields → ClientResponse
  | .nodes found => .nodes (found.map Node.ofWire)
  | .status found => .status found
  | .ticket text => .ticket text
  | .ack message => .ack message
  | .error message => .error message

def carried (resp : ClientResponse) : ClientResponse := ofWire resp.toWire

/-- No record in it has a part that is not on the wire. -/
def Portable : ClientResponse → Prop
  | .nodes found => ∀ node ∈ found, node.Portable
  | .status _ | .ticket _ | .ack _ | .error _ => True

theorem carried_eq_iff {resp : ClientResponse} : resp.carried = resp ↔ resp.Portable := by
  cases resp with
  | nodes found =>
    simp only [carried, toWire, ofWire, ClientResponse.nodes.injEq]
    exact map_carried_eq_iff
  | status _ | ticket _ | ack _ | error _ => simp [carried, toWire, ofWire, Portable]

end ClientResponse

/-- The tag of an error cannot stand for the truth value an answer to a login starts with. -/
theorem decode_authResponse_error (message : String) :
    authResponseFormat.decode (clientResponseFormat.write (.error message)) = none :=
  rfl

end P2pDdns
