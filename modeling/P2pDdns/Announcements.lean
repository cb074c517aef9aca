import P2pDdns.TrustTable

/-!
What an accepted announcement does to the sender's record. The record is refreshed
first and stamped with the local second, and merging wants a strictly newer record.
-/

set_option autoImplicit false

namespace P2pDdns
open Std FiniteMaps

/-- The record says what the sender announced; its address too, when the announced one is
the sender's own and has an IP. -/
def Carries (node : Node) (sender : EndpointId) (ann : Announcement) : Prop :=
  node.domain = ann.aliasName ∧ node.services = ann.services ∧ node.invitor = ann.invitor ∧
    (ann.addr.id = sender → hasIpAddr ann.addr = true → node.addr = ann.addr)

def Adopted (ctx : Context) (sender : EndpointId) (ann : Announcement) : Prop :=
  ∃ node, ctx.nodes[sender]? = some node ∧ Carries node sender ann

/-- The record already says what is announced, and adding the announced address to its own
gives just that address. -/
def SaysAlready (old : Node) (sender : EndpointId) (ann : Announcement) : Prop :=
  old.domain = ann.aliasName ∧ old.services = ann.services ∧ old.invitor = ann.invitor ∧
    (ann.addr.id = sender → hasIpAddr ann.addr = true →
      old.addr.id ≠ sender ∨
        (ann.addr.relayUrls = [] ∧ ∀ sock ∈ old.addr.ipAddrs, sock ∈ ann.addr.ipAddrs))

/-- The sender has no record, or the local second has advanced since its record was stamped,
which a message that passed does itself, or the record says the same. -/
def Adoptable (ctx : Context) (signed : SignedMessage) (env : Readings) (ann : Announcement) : Prop :=
  ∀ old, ctx.nodes[signed.sender]? = some old →
    (Passed ctx signed env → env.refreshNow < env.incomingNow) ∧
      (¬ Passed ctx signed env → old.lastHeartbeat < env.incomingNow) ∨
    SaysAlready old signed.sender ann

section Announced
variable {ctx : Context} {signed : SignedMessage} {env : Readings} {ann : Announcement}

theorem refreshed_nodes_sender (ctx : Context) (signed : SignedMessage)
    (hobs : env.refreshObserved = none) :
    (Passed ctx signed env ∧ (ctx.refreshed signed env).nodes[signed.sender]? =
      ctx.nodes[signed.sender]?.map fun old => { old with lastHeartbeat := env.refreshNow }) ∨
    (¬ Passed ctx signed env ∧
      (ctx.refreshed signed env).nodes[signed.sender]? = ctx.nodes[signed.sender]?) := by
  unfold Context.refreshed
  split
  · rename_i hpassed
    refine .inl ⟨status_passed.mp hpassed, ?_⟩
    rw [refreshSender_eq, hobs]
    cases hold : ctx.nodes[signed.sender]? with
    | none => simpa using hold
    | some old => simp
  · rename_i hpassed
    exact .inr ⟨fun h => hpassed (status_passed.mpr h), rfl⟩

theorem receive_accepted (h : Accepts ctx signed env ann) :
    (ctx.receive signed env).1 =
      (ctx.refreshed signed env).admitNode
        (mergeNode (ctx.refreshed signed env).nodes[signed.sender]?
          (ann.incoming signed.sender env)).1 := by
  rw [receive_eq]
  rcases h with ⟨hmsg, hpassed⟩ | ⟨hmsg, hfresh⟩
  · rw [hmsg, aboutMe_ctx, if_pos (status_passed.mpr hpassed)]
    rfl
  · rw [hmsg, invited_ctx, refreshed_ticket, status_fresh]
    rw [if_pos ⟨hfresh, by simp [Ticket.validate]⟩]
    rfl

theorem incoming_addr {sender : EndpointId} (hobs : env.observed 0 = none)
    (hid : ann.addr.id = sender) : (ann.incoming sender env).addr = ann.addr := by
  simp [Announcement.incoming, senderMessageAddr, observedDirectAddr, hobs, hid]

theorem mergeNode_carries_newer {sender : EndpointId} {old : Node} (hobs : env.observed 0 = none)
    (hlt : old.lastHeartbeat < env.incomingNow) :
    Carries (mergeNode (some old) (ann.incoming sender env)).1 sender ann := by
  rw [mergeNode_newer (by exact hlt)]
  refine ⟨rfl, rfl, rfl, ?_⟩
  intro hid hip
  dsimp only
  rw [incoming_addr hobs hid, if_pos hip]

theorem mergeNode_carries_iff {sender : EndpointId} {old : Node} (hobs : env.observed 0 = none)
    (hle : ¬ old.lastHeartbeat < env.incomingNow) :
    Carries (mergeNode (some old) (ann.incoming sender env)).1 sender ann ↔
      SaysAlready old sender ann := by
  rw [mergeNode_not_newer (by exact hle)]
  have haddr : ann.addr.id = sender → hasIpAddr ann.addr = true →
      (mergeAddr old.addr (ann.incoming sender env).addr = ann.addr ↔
        old.addr.id ≠ sender ∨
          (ann.addr.relayUrls = [] ∧ ∀ sock ∈ old.addr.ipAddrs, sock ∈ ann.addr.ipAddrs)) := by
    intro hid hip
    rw [incoming_addr hobs hid, mergeAddr_eq_incoming_iff hip, hid]
  constructor
  · rintro ⟨hdomain, hservices, hinvitor, hmerged⟩
    exact ⟨hdomain, hservices, hinvitor, fun hid hip => (haddr hid hip).mp (hmerged hid hip)⟩
  · rintro ⟨hdomain, hservices, hinvitor, hsame⟩
    exact ⟨hdomain, hservices, hinvitor, fun hid hip => (haddr hid hip).mpr (hsame hid hip)⟩

theorem mergeNode_carries {sender : EndpointId} {old : Node} (hobs : env.observed 0 = none) :
    Carries (mergeNode (some old) (ann.incoming sender env)).1 sender ann ↔
      old.lastHeartbeat < env.incomingNow ∨ SaysAlready old sender ann := by
  by_cases hlt : old.lastHeartbeat < env.incomingNow
  · exact ⟨fun _ => .inl hlt, fun _ => mergeNode_carries_newer hobs hlt⟩
  · rw [mergeNode_carries_iff hobs hlt]
    exact ⟨.inr, fun h => h.resolve_left hlt⟩

theorem adopted_iff (ht : TrustTable ctx) (hme : signed.sender ≠ ctx.me.nodeId)
    (h : Accepts ctx signed env ann) :
    Adopted (ctx.receive signed env).1 signed.sender ann ↔
      Carries (mergeNode (ctx.refreshed signed env).nodes[signed.sender]?
        (ann.incoming signed.sender env)).1 signed.sender ann := by
  have hkeyed := ht.nodesKeyed.refreshed signed env
  have hid : (mergeNode (ctx.refreshed signed env).nodes[signed.sender]?
      (ann.incoming signed.sender env)).1.nodeId = signed.sender :=
    mergeNode_nodeId fun old hold => hkeyed _ old hold
  have hheld : (ctx.receive signed env).1.nodes[signed.sender]? =
      some (mergeNode (ctx.refreshed signed env).nodes[signed.sender]?
        (ann.incoming signed.sender env)).1 := by
    rw [receive_accepted h, admitNode_nodes _ _ (by rwa [hid, refreshed_me]), hid]
    exact getElem?_insert_self _ _ _
  simp [Adopted, hheld]

end Announced

/-- An accepted announcement of a peer that is not observed directly is adopted exactly if
there is no record of the peer, the record is stamped before the announcement is, or it
says the same already. -/
theorem announcement_adopted_iff {codecs : Codecs} {d : Daemon} (hd : Reachable codecs d)
    (signed : SignedMessage) (env : Readings) (ann : Announcement)
    (hpeer : signed.sender ≠ d.ctx.me.nodeId) (haccepts : Accepts d.ctx signed env ann)
    (hrefresh : env.refreshObserved = none) (hobs : env.observed 0 = none) :
    Adopted (d.ctx.receive signed env).1 signed.sender ann ↔ Adoptable d.ctx signed env ann := by
  rw [adopted_iff hd.trustTable hpeer haccepts]
  unfold Adoptable
  cases hold : d.ctx.nodes[signed.sender]? with
  | none =>
    have hnone : (d.ctx.refreshed signed env).nodes[signed.sender]? = none := by
      rcases refreshed_nodes_sender d.ctx signed hrefresh with
        ⟨-, h⟩ | ⟨-, h⟩ <;> simpa [hold] using h
    rw [hnone]
    constructor
    · intro _ old hnew
      contradiction
    · intro _
      exact ⟨rfl, rfl, rfl, fun hid _ => incoming_addr hobs hid⟩
  | some old =>
    rcases refreshed_nodes_sender d.ctx signed hrefresh with
      ⟨hpassed, h⟩ | ⟨hpassed, h⟩
    · -- The refresh has just stamped the record.
      rw [h, hold, Option.map_some, mergeNode_carries hobs]
      constructor
      · rintro (hlt | hsays) x ⟨⟩
        · exact .inl ⟨fun _ => hlt, fun hn => absurd hpassed hn⟩
        · exact .inr hsays
      · intro hcond
        rcases hcond old rfl with ⟨hlt, -⟩ | hsays
        · exact .inl (hlt hpassed)
        · exact .inr hsays
    · rw [h, hold, mergeNode_carries hobs]
      constructor
      · rintro (hlt | hsays) x ⟨⟩
        · exact .inl ⟨fun hn => absurd hn hpassed, fun _ => hlt⟩
        · exact .inr hsays
      · intro hcond
        rcases hcond old rfl with ⟨-, hlt⟩ | hsays
        · exact .inl (hlt hpassed)
        · exact .inr hsays

namespace Sample

def onlyBobRunning : Daemon := (start [record bob "bob" [2] 900]).daemon

def bobMoved : Announcement := ⟨.fromParts bob [.ip (sock 9)], "robert", ∅, alice⟩

def bobAnnounces : SignedMessage :=
  ⟨bob, .aboutMe bobMoved.addr bobMoved.aliasName bobMoved.services bobMoved.invitor, 1001⟩

theorem bobAnnounces_accepted (env : Readings) (hnow : env.verifyNow = 1001) :
    Accepts onlyBobRunning.ctx bobAnnounces env bobMoved := by
  refine .inl ⟨rfl, by decide, ?_⟩
  rw [hnow]
  decide

end Sample

theorem announcement_adopted_next_second :
    let env := { Sample.readings 1001 with incomingNow := 1002, replyNow := 1002 }
    Adopted (Sample.onlyBobRunning.ctx.receive Sample.bobAnnounces env).1 Sample.bob
        Sample.bobMoved ↔
      Adoptable Sample.onlyBobRunning.ctx Sample.bobAnnounces env Sample.bobMoved :=
  announcement_adopted_iff ⟨Sample.start [Sample.record Sample.bob "bob" [2] 900], [], rfl⟩
    Sample.bobAnnounces _ Sample.bobMoved (by decide) (Sample.bobAnnounces_accepted _ rfl) rfl rfl

/-- Handled within one second, bob's announcement leaves the old name and the old IP. -/
theorem announcement_lost_in_same_second :
    ¬ ∀ (d : Daemon) (signed : SignedMessage) (env : Readings) (ann : Announcement),
      Reachable Sample.codecs d → signed.sender ≠ d.ctx.me.nodeId → Accepts d.ctx signed env ann →
      env.verifyNow ≤ env.refreshNow → env.refreshNow ≤ env.incomingNow →
      (∀ old, d.ctx.nodes[signed.sender]? = some old → old.lastHeartbeat ≤ env.refreshNow) →
      env.refreshObserved = none → env.observed 0 = none →
      Adopted (d.ctx.receive signed env).1 signed.sender ann := by
  intro hclaim
  have hpast : ∀ old, Sample.onlyBobRunning.ctx.nodes[Sample.bob]? = some old →
      old.lastHeartbeat ≤ 1001 := by
    intro old hold
    have hbob : Sample.onlyBobRunning.ctx.nodes[Sample.bob]? =
        some (Sample.record Sample.bob "bob" [2] 900) := by decide
    obtain rfl := Option.some.inj (hbob.symm.trans hold)
    decide
  obtain ⟨node, hnode, hdomain, -⟩ := hclaim Sample.onlyBobRunning Sample.bobAnnounces
    (Sample.readings 1001) Sample.bobMoved
    ⟨Sample.start [Sample.record Sample.bob "bob" [2] 900], [], rfl⟩ (by decide)
    (Sample.bobAnnounces_accepted _ rfl) le_rfl le_rfl hpast rfl rfl
  have hkept : (Sample.onlyBobRunning.ctx.receive Sample.bobAnnounces
      (Sample.readings 1001)).1.nodes[Sample.bob]?.map (·.domain) = some "bob" := by decide
  have hname : some "robert" = some "bob" := by
    rw [← hkept]
    exact (congrArg (Option.map (·.domain)) hnode).trans (congrArg some hdomain) |>.symm
  revert hname
  decide

end P2pDdns
