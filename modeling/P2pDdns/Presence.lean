import P2pDdns.Provenance

/-!
Where active records come from. An id enters the active table through its own
announcement, a sync list, a ticket, or as a client; from this follow who can bring
back a node that left, and when a daemon comes to list itself.
-/

set_option autoImplicit false

namespace P2pDdns
open Std FiniteMaps Relation

variable {codecs : Codecs}

def AnnouncesItself (d : Daemon) (id : EndpointId) : Event → Prop
  | .received (some signed) env =>
    signed.sender = id ∧ ∃ ann, Accepts d.ctx signed env ann
  | _ => False

def RegistersAs (codecs : Codecs) (d : Daemon) (id : EndpointId) : Event → Prop
  | .authenticate authReq mode _ =>
    authAllowed codecs d.ctx authReq mode = true ∧ clientKey codecs authReq = some id ∧
      d.clients.isClientNode id = false
  | _ => False

/-- The events that make `id` active as a peer. -/
def Brings (codecs : Codecs) (d : Daemon) (id : EndpointId) (e : Event) : Prop :=
  AnnouncesItself d id e ∨ ListedByTrusted d id e ∨ ListedForClient d id e ∨
    AddsTicketOf codecs d id e

theorem mem_nodes_upsertActiveNode {ctx : Context} {node : Node} {id : EndpointId}
    (h : id ∈ (ctx.upsertActiveNode node).nodes) :
    (id = node.nodeId ∧ id ≠ ctx.me.nodeId) ∨ id ∈ ctx.nodes := by
  rcases Context.upsertActiveNode_cases ctx node with ⟨-, heq⟩ | ⟨hme, heq⟩
  · rw [heq] at h
    exact .inr h
  · rw [heq, ExtTreeMap.mem_insert, LawfulEqOrd.compare_eq_iff_eq] at h
    rcases h with rfl | h
    · exact .inl ⟨rfl, hme⟩
    · exact .inr h

theorem mem_nodes_admitNode {ctx : Context} {node : Node} {id : EndpointId}
    (h : id ∈ (ctx.admitNode node).nodes) :
    (id = node.nodeId ∧ id ≠ ctx.me.nodeId) ∨ id ∈ ctx.nodes := by
  have := mem_nodes_upsertActiveNode h
  rwa [Context.trustDaemonNode_me, Context.trustDaemonNode_nodes] at this

theorem Heard.brings {start : Daemon} {signed : SignedMessage} {env : Readings}
    {ctx ctx' : Context} {id : EndpointId} (hc : Heard start.ctx signed env ctx ctx')
    (ht : TrustTable ctx) (h0 : id ∉ ctx.nodes) (h1 : id ∈ ctx'.nodes) :
    id ≠ ctx.me.nodeId ∧ Brings codecs start id (.received (some signed) env) := by
  cases hc with
  | @touched old _ hold =>
    rw [ExtTreeMap.mem_insert, LawfulEqOrd.compare_eq_iff_eq] at h1
    rcases h1 with rfl | h1
    · exact absurd (mem_of_getElem? hold) h0
    · exact absurd h1 h0
  | @observed old sock _ _ hold =>
    -- A record is refreshed under the id it is already active under.
    rcases mem_nodes_upsertActiveNode h1 with ⟨hid, -⟩ | h1
    · have hkey : old.nodeId = signed.sender := ht.nodesKeyed _ _ hold
      have hmem : id ∈ ctx.nodes := by
        rw [hid, observedNode, hkey]
        exact mem_of_getElem? hold
      exact absurd hmem h0
    · rw [Context.refreshTrustedNode_nodes] at h1
      exact absurd h1 h0
  | @announced ann haccepts =>
    rcases mem_nodes_admitNode h1 with ⟨hid, hme⟩ | h1
    · rw [ht.merged_nodeId signed.sender rfl] at hid
      exact ⟨hme, .inl ⟨hid.symm, ann, haccepts⟩⟩
    · exact absurd h1 h0
  | @listed earlier later node hmsg hgate _ _ =>
    rcases mem_nodes_admitNode h1 with ⟨hid, hme⟩ | h1
    · rw [ht.merged_nodeId node.nodeId (listedNode_nodeId _ _ _)] at hid
      have hlists : Lists signed node := ⟨_, hmsg, by simp⟩
      rcases hgate with hclient | hpassed
      · exact ⟨hme, .inr (.inr (.inl ⟨hclient, node, hlists, hid.symm⟩))⟩
      · exact ⟨hme, .inr (.inl ⟨hpassed, node, hlists, hid.symm⟩)⟩
    · exact absurd h1 h0
  | left _ _ => exact absurd (ExtTreeMap.mem_of_mem_erase h1) h0

theorem Change.brings {start d d' : Daemon} {e : Event} {id : EndpointId}
    (hc : Change codecs start e d d') (ht : TrustTable d.ctx) (h0 : id ∉ d.ctx.nodes)
    (h1 : id ∈ d'.ctx.nodes) :
    (id ≠ d.ctx.me.nodeId ∧ Brings codecs start id e) ∨ RegistersAs codecs start id e := by
  cases hc with
  | heard hheard => exact .inl (hheard.brings ht h0 h1)
  | @registered authReq mode env _ pk hallowed hkey hnew =>
    rw [ExtTreeMap.mem_insert, LawfulEqOrd.compare_eq_iff_eq] at h1
    rcases h1 with rfl | h1
    · exact .inr ⟨hallowed, hkey, hnew⟩
    · exact absurd h1 h0
  | @added client ticket env _ parsed hperm hparsed htopic =>
    rcases mem_nodes_admitNode h1 with ⟨hid, hme⟩ | h1
    · exact .inl ⟨hme, .inr (.inr (.inr ⟨hperm, parsed, hparsed, htopic, hid.symm⟩))⟩
    · exact absurd h1 h0
  | expired => exact absurd (ExtTreeMap.mem_of_mem_erase h1) h0
  | revoked _ _ _ => exact absurd (ExtTreeMap.mem_of_mem_erase h1) h0
  | saved => exact absurd h1 h0
  | persisted => exact absurd h1 h0
  | paused => exact absurd h1 h0

theorem step_brings {d : Daemon} {e : Event} {id : EndpointId} (ht : TrustTable d.ctx)
    (h0 : id ∉ d.ctx.nodes) (h1 : id ∈ (d.step codecs e).ctx.nodes) :
    (id ≠ d.ctx.me.nodeId ∧ Brings codecs d id e) ∨ RegistersAs codecs d id e := by
  obtain ⟨u, u', hu, hchange, hPu, hPu'⟩ := Runs.turn_of_micro
    (P := fun d : Daemon => id ∈ d.ctx.nodes) (step_changes codecs d e) h0 h1
  have hbrings := hchange.brings (TrustTable.changes hu ht) hPu hPu'
  rwa [(changes_frame hu).1] at hbrings

/-! The daemon's own entry. -/

def Start.TicketNamesItself (start : Start codecs) : Prop :=
  ∃ text ticket, start.args.ticket = some text ∧ Ticket.fromStr codecs text = .ok ticket ∧
    ticket.invitor.nodeId = ownId start.args start.storage start.env

theorem start_lists_itself_iff (start : Start codecs) :
    start.ctx.me.nodeId ∈ start.ctx.nodes ↔ start.TicketNamesItself := by
  obtain ⟨argTicket, hticket, -, -, hnodes, -, -, hown⟩ := initNetwork_ok start.started
  rw [hnodes]
  constructor
  · intro hmem
    obtain ⟨node, hn⟩ := exists_getElem? hmem
    obtain ⟨hid, horigin⟩ := startBootstrapNodes_cases hn
    rcases horigin with hstored | hinv
    · exact absurd hid (mem_persistedDaemons.mp hstored).2.2
    · obtain ⟨text, ticket, htext, hparse, rfl⟩ := (parseArgTicket_invitor hticket).mp hinv
      exact ⟨text, ticket, htext, hparse, hid.trans hown⟩
  · rintro ⟨text, ticket, htext, hparse, hid⟩
    have hinv := (parseArgTicket_invitor hticket).mpr ⟨text, ticket, htext, hparse, rfl⟩
    simp [hinv, startBootstrapNodes, hid, hown]

theorem registersAs_lists {d : Daemon} {e : Event} {id : EndpointId}
    (h : RegistersAs codecs d id e) : id ∈ (d.step codecs e).ctx.nodes := by
  cases e with
  | authenticate authReq mode env =>
    obtain ⟨hallowed, hkey, hnew⟩ := h
    simp [Daemon.step, authenticateAndRegister, hallowed, hkey, hnew]
  | _ => exact h.elim

/-- A daemon never lists itself exactly if its start-up ticket does not name it and no
client registers under its own key. -/
theorem never_lists_itself_iff (start : Start codecs) (events : List Event) :
    (∀ before after, events = before ++ after →
      start.ctx.me.nodeId ∉ (start.daemon.run codecs before).ctx.nodes) ↔
    ¬ start.TicketNamesItself ∧
      Runs.Along (Daemon.step codecs) (fun d e => ¬ RegistersAs codecs d start.ctx.me.nodeId e)
        start.daemon events := by
  have hstep : ∀ (d : Daemon) (e : Event),
      (TrustTable d.ctx ∧ d.ctx.me = start.ctx.me) → start.ctx.me.nodeId ∉ d.ctx.nodes →
      (start.ctx.me.nodeId ∉ (d.step codecs e).ctx.nodes ↔
        ¬ RegistersAs codecs d start.ctx.me.nodeId e) := by
    intro d e ⟨ht, hme⟩ h0
    rw [not_iff_not]
    constructor
    · intro h1
      rcases step_brings ht h0 h1 with ⟨hne, -⟩ | hregisters
      · rw [hme] at hne
        exact absurd rfl hne
      · exact hregisters
    · exact registersAs_lists
  have hinvariant : ∀ (d : Daemon) (e : Event), (TrustTable d.ctx ∧ d.ctx.me = start.ctx.me) →
      TrustTable (d.step codecs e).ctx ∧ (d.step codecs e).ctx.me = start.ctx.me := by
    intro d e ⟨ht, hme⟩
    exact ⟨TrustTable.step d e ht, (changes_frame (step_changes codecs d e)).1.trans hme⟩
  rw [← start_lists_itself_iff start]
  exact Runs.always_iff_along hinvariant hstep ⟨TrustTable.start start, rfl⟩

/-- A client that authenticates with the daemon's own key puts the daemon into its own table. -/
theorem lists_itself_as_client :
    ¬ ∀ (start : Start Sample.codecs) (events : List Event),
      start.ctx.me.nodeId ∉ (start.daemon.run Sample.codecs events).ctx.nodes := by
  intro hclaim
  have h := hclaim (Sample.start [])
    [Sample.authenticates "11qYAYKxCrfVS/7TyWQHOg7hcvPapiMlrwIaaPcHURo" 1001]
  revert h
  decide

/-! Departures. -/

/-- A `Left` signed by `id` at time `t` that is accepted and takes `id` out of the table. -/
def Departs (d : Daemon) (id : EndpointId) (t : Nat) : Event → Prop
  | .received (some signed) env =>
    signed = ⟨id, .left, t⟩ ∧ Passed d.ctx signed env ∧ id ∈ d.ctx.nodes
  | _ => False

theorem Departs.absent {d : Daemon} {id : EndpointId} {t : Nat} {e : Event}
    (h : Departs d id t e) : id ∉ (d.step codecs e).ctx.nodes := by
  cases e with
  | received signed env =>
    cases signed with
    | none => exact h.elim
    | some signed =>
      obtain ⟨rfl, hpassed, -⟩ := h
      have hstatus := status_passed.mpr hpassed
      simp [Daemon.step, receive_eq, left_ctx, hstatus]
  | _ => exact h.elim

/-- A fresh message of `id`, signed after `t` or else verified within a minute of `t`. -/
def SignsSince (id : EndpointId) (t : Nat) : Event → Prop
  | .received (some signed) env =>
    signed.sender = id ∧ signed.isFresh env.verifyNow = true ∧
      (t < signed.timestamp ∨ env.verifyNow ≤ t + MAX_AGE_SECS)
  | _ => False

/-- A fresh sync list of another trusted peer that names `id`. -/
def ListedByAnother (d : Daemon) (id : EndpointId) : Event → Prop
  | .received (some signed) env =>
    signed.sender ≠ id ∧ ListedByTrusted d id (.received (some signed) env)
  | _ => False

/-- The signed timestamp of a message is used for nothing but its freshness. -/
theorem signsSince_of_fresh {signed : SignedMessage} {env : Readings} (t : Nat)
    (h : signed.isFresh env.verifyNow = true) :
    SignsSince signed.sender t (.received (some signed) env) := by
  refine ⟨rfl, h, ?_⟩
  have hage := (SignedMessage.isFresh_window h).2
  omega

theorem Accepts.fresh {ctx : Context} {signed : SignedMessage} {env : Readings}
    {ann : Announcement} (h : Accepts ctx signed env ann) :
    signed.isFresh env.verifyNow = true := by
  rcases h with ⟨-, hpassed⟩ | ⟨-, hfresh⟩
  · exact hpassed.2
  · exact hfresh

theorem Brings.since {d : Daemon} {id : EndpointId} (t : Nat) {e : Event}
    (h : Brings codecs d id e) :
    SignsSince id t e ∨ ListedByAnother d id e ∨ ListedForClient d id e ∨
      AddsTicketOf codecs d id e := by
  cases e with
  | received signed env =>
    cases signed with
    | none => rcases h with h | h | h | h <;> exact h.elim
    | some signed =>
      rcases h with ⟨rfl, ann, haccepts⟩ | h | h | h
      · exact .inl (signsSince_of_fresh t haccepts.fresh)
      · by_cases hsender : signed.sender = id
        · obtain ⟨⟨-, hfresh⟩, -⟩ := h
          subst hsender
          exact .inl (signsSince_of_fresh t hfresh)
        · exact .inr (.inl ⟨hsender, h⟩)
      · exact .inr (.inr (.inl h))
      · exact h.elim
  | command client cmd env =>
    rcases h with h | h | h | h
    · exact h.elim
    · exact h.elim
    · exact h.elim
    · exact .inr (.inr (.inr h))
  | _ => rcases h with h | h | h | h <;> exact h.elim

/-- Who left is active again only through a recent message of its own, a sync list of
another trusted peer, a ticket, or as a client. -/
theorem return_after_left (start : Start codecs) (before after : List Event) (departure : Event)
    (id : EndpointId) (t : Nat)
    (hleft : Departs (start.daemon.run codecs before) id t departure)
    (hback : id ∈ (start.daemon.run codecs (before ++ departure :: after)).ctx.nodes) :
    ∃ mid e rest, after = mid ++ e :: rest ∧
      let d := start.daemon.run codecs (before ++ departure :: mid)
      SignsSince id t e ∨ ListedByAnother d id e ∨ ListedForClient d id e ∨
        AddsTicketOf codecs d id e ∨ RegistersAs codecs d id e := by
  have hsplit : ∀ es, start.daemon.run codecs (before ++ departure :: es) =
      ((start.daemon.run codecs before).step codecs departure).run codecs es := by
    intro es
    simp [Daemon.run]
  rw [hsplit] at hback
  obtain ⟨mid, e, rest, hafter, habsent, hpresent⟩ :=
    Runs.exists_turn (P := fun d : Daemon => id ∈ d.ctx.nodes) hleft.absent hback
  have ht := TrustTable.run start (before ++ departure :: mid)
  refine ⟨mid, e, rest, hafter, ?_⟩
  rw [hsplit] at ht ⊢
  rcases step_brings ht habsent hpresent with ⟨-, h⟩ | h
  · rcases h.since t with h | h | h | h
    · exact .inl h
    · exact .inr (.inl h)
    · exact .inr (.inr (.inl h))
    · exact .inr (.inr (.inr (.inl h)))
  · exact .inr (.inr (.inr (.inr h)))

namespace Sample

def bobLeaves : Event := sends bob .left 1001

def bobAnnouncedEarlier : Event :=
  .received (some ⟨bob, .aboutMe (.fromParts bob [.ip (sock 2)]) "bob" ∅ alice, 1000⟩)
    (readings 1002)

end Sample

/-- An announcement that the `Left` overtook brings its sender back. -/
theorem left_overtaken :
    ¬ ∀ (start : Start Sample.codecs) (before after : List Event) (departure : Event)
        (id : EndpointId) (t : Nat),
      Departs (start.daemon.run Sample.codecs before) id t departure →
      id ∈ (start.daemon.run Sample.codecs (before ++ departure :: after)).ctx.nodes →
      ∃ mid e rest, after = mid ++ e :: rest ∧
        let d := start.daemon.run Sample.codecs (before ++ departure :: mid)
        (∃ signed env, e = .received (some signed) env ∧ signed.sender = id ∧
          t < signed.timestamp) ∨
        ListedByAnother d id e ∨ AddsTicketOf Sample.codecs d id e := by
  intro hclaim
  obtain ⟨mid, e, rest, hafter, hreturn⟩ := hclaim
    (Sample.start [Sample.record Sample.bob "bob" [2] 900]) [] [Sample.bobAnnouncedEarlier]
    Sample.bobLeaves Sample.bob 1001 ⟨rfl, ⟨by decide, by decide⟩, by decide⟩ (by decide)
  obtain ⟨rfl, rfl, rfl⟩ : mid = [] ∧ e = Sample.bobAnnouncedEarlier ∧ rest = [] := by
    cases mid with
    | nil => simpa [eq_comm] using hafter
    | cons m mid => simp at hafter
  rcases hreturn with ⟨signed, env, heq, -, hlater⟩ | ⟨hother, -⟩ | h
  · obtain rfl := Option.some.inj (Event.received.inj heq).1
    revert hlater
    decide
  · exact hother rfl
  · exact h.elim

theorem return_after_left_overtaken :
    ∃ mid e rest, [Sample.bobAnnouncedEarlier] = mid ++ e :: rest ∧
      let d := (Sample.start [Sample.record Sample.bob "bob" [2] 900]).daemon.run Sample.codecs
        ([] ++ Sample.bobLeaves :: mid)
      SignsSince Sample.bob 1001 e ∨ ListedByAnother d Sample.bob e ∨
        ListedForClient d Sample.bob e ∨ AddsTicketOf Sample.codecs d Sample.bob e ∨
        RegistersAs Sample.codecs d Sample.bob e :=
  return_after_left (Sample.start [Sample.record Sample.bob "bob" [2] 900]) []
    [Sample.bobAnnouncedEarlier] Sample.bobLeaves Sample.bob 1001
    ⟨rfl, ⟨by decide, by decide⟩, by decide⟩ (by decide)

end P2pDdns
