import P2pDdns.ContactInfo

/-!
Expiry of silent nodes. A heartbeat is stamped by the local clock or taken from a
peer's record; as long as no record is ahead of the local clock, what survives a
cleanup was processed within the time to live.
-/

set_option autoImplicit false

namespace P2pDdns
open Std FiniteMaps Relation

variable {codecs : Codecs}

/-- The readings of the local clock an event makes, in order. -/
def Event.clock : Event → List Nat
  | .received _ env => [env.verifyNow, env.refreshNow, env.incomingNow, env.replyNow]
  | .cleanup now _ => [now]
  | .save _ _ => []
  | .authenticate _ _ env => [env.recordNow, env.connectedNow]
  | .command _ _ env => [env.now]

def ClockAdvances (start : Start codecs) (events : List Event) : Prop :=
  (start.env.now :: events.flatMap Event.clock).Pairwise (· ≤ ·)

def Event.processedAt : Event → Option Nat
  | .received (some _) env => some env.incomingNow
  | .command _ _ env => some env.now
  | _ => none

/-- Every local time the event can write into a daemon's record is at most `t`. -/
def Event.StampsBy (t : Nat) : Event → Prop
  | .received _ env => env.refreshNow ≤ t ∧ env.incomingNow ≤ t
  | .command _ _ env => env.now ≤ t
  | _ => True

/-- A listed record, or the node of an added ticket, that the daemon takes over with a heartbeat
after the local time it is processed at. -/
def TakesFutureRecord (codecs : Codecs) (d : Daemon) : Event → Prop
  | .received (some signed) env =>
    (d.ctx.args.daemon = false ∨ Passed d.ctx signed env) ∧
      ∃ earlier node later, Syncs signed (earlier ++ node :: later) ∧
        Taken (d.ctx.refreshed signed env) earlier node ∧ env.incomingNow < node.lastHeartbeat
  | .command client (.addNode ticket) env =>
    d.clients.checkPermission client "add_node" = true ∧
      ∃ parsed, Ticket.fromStr codecs ticket = .ok parsed ∧ parsed.topic = d.ctx.ticket.topic ∧
        parsed.invitor.nodeId ≠ d.ctx.me.nodeId ∧ isDaemonNode parsed.invitor = true ∧
        env.now < parsed.invitor.lastHeartbeat
  | _ => False

def NotAhead (t : Nat) (ctx : Context) : Prop :=
  ∀ (id : EndpointId) (node : Node), ctx.nodes[id]? = some node → isDaemonNode node = true →
    node.lastHeartbeat ≤ t

namespace NotAhead
variable {t : Nat} {ctx : Context}

theorem insert_nodes (h : NotAhead t ctx) {id : EndpointId} {node : Node}
    (hnode : isDaemonNode node = true → node.lastHeartbeat ≤ t) :
    NotAhead t { ctx with nodes := ctx.nodes.insert id node } := forall_insert h hnode

theorem erase_nodes (h : NotAhead t ctx) (id : EndpointId) :
    NotAhead t { ctx with nodes := ctx.nodes.erase id } := forall_erase h id

theorem of_nodes_eq {ctx' : Context} (h : NotAhead t ctx) (heq : ctx'.nodes = ctx.nodes) :
    NotAhead t ctx' := by
  intro a n hn hd
  rw [heq] at hn
  exact h a n hn hd

theorem upsertActiveNode (h : NotAhead t ctx) {node : Node}
    (hnode : isDaemonNode node = true → node.lastHeartbeat ≤ t) :
    NotAhead t (ctx.upsertActiveNode node) := by
  rcases Context.upsertActiveNode_cases ctx node with ⟨-, heq⟩ | ⟨-, heq⟩
  · rw [heq]
    exact h
  · rw [heq]
    exact (h.insert_nodes hnode).of_nodes_eq rfl

theorem admitNode (h : NotAhead t ctx) {node : Node}
    (hnode : isDaemonNode node = true → node.lastHeartbeat ≤ t) : NotAhead t (ctx.admitNode node) :=
  (h.of_nodes_eq (Context.trustDaemonNode_nodes ctx node)).upsertActiveNode hnode

theorem mergeNode (h : NotAhead t ctx) (id : EndpointId) {incoming : Node}
    (hincoming : isDaemonNode incoming = true → incoming.lastHeartbeat ≤ t) :
    isDaemonNode (mergeNode ctx.nodes[id]? incoming).1 = true →
      (mergeNode ctx.nodes[id]? incoming).1.lastHeartbeat ≤ t :=
  mergeNode_induct (P := fun node => isDaemonNode node = true → node.lastHeartbeat ≤ t)
    (fun _ _ hnode => hnode) (fun old hold => h id old hold) hincoming

theorem heard {start : Daemon} {ctx' : Context} {signed : SignedMessage} {env : Readings}
    (hstamps : (Event.received (some signed) env).StampsBy t)
    (hcond : ¬ TakesFutureRecord codecs start (.received (some signed) env))
    (hc : Heard start.ctx signed env ctx ctx') (h : NotAhead t ctx) : NotAhead t ctx' := by
  obtain ⟨hrefresh, hincoming⟩ := hstamps
  cases hc with
  | touched _ _ => exact h.insert_nodes fun _ => hrefresh
  | observed _ _ _ =>
    exact (h.of_nodes_eq (Context.refreshTrustedNode_nodes _ _ _)).upsertActiveNode fun _ => hrefresh
  | announced _ => exact h.admitNode (h.mergeNode signed.sender fun _ => hincoming)
  | @listed earlier later node hmsg hgate htaken _ =>
    have hpast : node.lastHeartbeat ≤ env.incomingNow := by
      by_contra hfuture
      exact hcond ⟨hgate, earlier, node, later, hmsg, htaken, by omega⟩
    refine h.admitNode (h.mergeNode node.nodeId fun _ => ?_)
    rw [listedNode_lastHeartbeat]
    omega
  | left _ _ => exact h.erase_nodes _

theorem change {start d d' : Daemon} {e : Event} (hstamps : e.StampsBy t)
    (hcond : ¬ TakesFutureRecord codecs start e) (hme : d.ctx.me = start.ctx.me)
    (hc : Change codecs start e d d') (h : NotAhead t d.ctx) : NotAhead t d'.ctx := by
  cases hc with
  | heard hheard => exact heard hstamps hcond hheard h
  | expired => exact h.erase_nodes _
  | saved => exact h
  | registered _ _ _ =>
    refine h.insert_nodes fun hd => ?_
    rw [isDaemonNode_clientNode] at hd
    contradiction
  | @added client ticket env _ parsed hperm hparsed htopic =>
    by_cases hself : parsed.invitor.nodeId = start.ctx.me.nodeId
    · rw [admitNode_self _ _ (hself.trans (congrArg Node.nodeId hme).symm)]
      exact h
    · refine h.admitNode fun hd => ?_
      have hnow : env.now ≤ t := hstamps
      by_contra hfuture
      exact hcond ⟨hperm, parsed, hparsed, htopic, hself, hd, by omega⟩
  | persisted => exact h
  | revoked _ _ _ => exact forall_erase h _
  | paused => exact h

theorem step {d : Daemon} {e : Event} (h : NotAhead t d.ctx)
    (hcond : ¬ TakesFutureRecord codecs d e) (hstamps : e.StampsBy t) :
    NotAhead t (d.step codecs e).ctx :=
  changes_induct (I := fun d : Daemon => NotAhead t d.ctx) (step_changes codecs d e) h
    fun _ _ hme hc => change hstamps hcond hme hc

end NotAhead

theorem cleanup_survivor {ctx : Context} {now : Nat} {iter : IterOrder} {id : EndpointId}
    {node : Node} (h : (ctx.cleanup now iter).nodes[id]? = some node) :
    ctx.nodes[id]? = some node ∧
      (isDaemonNode node = true → now ≤ node.lastHeartbeat + STALE_NODE_TTL_SECS) := by
  obtain ⟨-, h⟩ := getElem?_eraseAll.mp h
  obtain ⟨hkept, h⟩ := getElem?_eraseAll.mp h
  refine ⟨h, fun hd => ?_⟩
  by_contra hstale
  refine hkept (List.mem_filterMap.mpr ⟨(id, node), iter.mem_walk.mpr h, ?_⟩)
  have hclient : node.services.contains SERVICE_MARKER_CLIENT = false := by
    simpa [isDaemonNode] using hd
  have hage : STALE_NODE_TTL_SECS < now - node.lastHeartbeat := by omega
  simp [hclient, hage]

theorem Change.kept {start d d' : Daemon} {e : Event} {id : EndpointId} {node : Node}
    (hc : Change codecs start e d d') (he : e.processedAt = none) (hd : isDaemonNode node = true)
    (h : d'.ctx.nodes[id]? = some node) : d.ctx.nodes[id]? = some node := by
  cases hc with
  | expired => exact (getElem?_erase_cases h).2
  | saved => exact h
  | registered _ _ _ =>
    rcases getElem?_insert_cases h with ⟨-, rfl⟩ | ⟨-, h⟩
    · rw [isDaemonNode_clientNode] at hd
      contradiction
    · exact h
  | _ => contradiction

theorem step_kept {d : Daemon} {e : Event} {id : EndpointId} {node : Node}
    (he : e.processedAt = none) (hd : isDaemonNode node = true)
    (h : (d.step codecs e).ctx.nodes[id]? = some node) : d.ctx.nodes[id]? = some node := by
  refine changes_induct (I := fun u : Daemon => u.ctx.nodes[id]? = some node →
    d.ctx.nodes[id]? = some node) (step_changes codecs d e) (fun hn => hn) ?_ h
  exact fun _ _ _ hc ih hn => ih (hc.kept he hd hn)

section Clock
variable {start : Start codecs} {before after : List Event} {e : Event}

theorem Event.stampsBy_of_clock {t : Nat} (h : ∀ c ∈ e.clock, c ≤ t) : e.StampsBy t := by
  cases e with
  | received signed env => exact ⟨h _ (by simp [Event.clock]), h _ (by simp [Event.clock])⟩
  | command client cmd env => exact h _ (by simp [Event.clock])
  | _ => trivial

theorem ClockAdvances.stampsBy {t : Nat} (h : ClockAdvances start (before ++ e :: after))
    (ht : e.processedAt = some t) :
    start.env.now ≤ t ∧ ∀ f ∈ before ++ [e], f.StampsBy t := by
  simp only [ClockAdvances, List.flatMap_append, List.flatMap_cons, List.pairwise_cons,
    List.pairwise_append, List.mem_append] at h
  obtain ⟨hstart, -, ⟨hself, -, -⟩, hbefore⟩ := h
  have hread : t ∈ e.clock ∧ e.StampsBy t := by
    cases e with
    | received signed env =>
      cases signed with
      | none => contradiction
      | some signed =>
        obtain rfl := Option.some.inj ht
        simp only [Event.clock, List.pairwise_cons] at hself
        have hle := hself.2.1 env.incomingNow (by simp)
        exact ⟨by simp [Event.clock], hle, le_rfl⟩
    | command client cmd env =>
      obtain rfl := Option.some.inj ht
      exact ⟨by simp [Event.clock], le_rfl⟩
    | _ => contradiction
  refine ⟨hstart t (.inr (.inl hread.1)), ?_⟩
  intro f hf
  rcases List.mem_append.mp hf with hf | hf
  · refine Event.stampsBy_of_clock fun c hc => ?_
    exact hbefore c (List.mem_flatMap.mpr ⟨f, hf, hc⟩) t (.inl hread.1)
  · obtain rfl := List.mem_singleton.mp hf
    exact hread.2

end Clock

/-- The record was loaded at start-up, or last changed by a message or a command, at a local
time within the time to live before `now`. -/
def HeardWithinTtl (start : Start codecs) (events : List Event) (now : Nat) (id : EndpointId)
    (node : Node) : Prop :=
  (start.ctx.nodes[id]? = some node ∧ now ≤ start.env.now + STALE_NODE_TTL_SECS) ∨
    ∃ before e after t, events = before ++ e :: after ∧ e.processedAt = some t ∧
      (start.daemon.run codecs before).ctx.nodes[id]? ≠ some node ∧
      (start.daemon.run codecs (before ++ [e])).ctx.nodes[id]? = some node ∧
      now ≤ t + STALE_NODE_TTL_SECS

/-- While no record with a heartbeat ahead of the local clock is loaded or taken over, the
daemons that survive a cleanup were heard of within the time to live. -/
theorem survivors_were_heard (start : Start codecs)
    (hstart : ∀ node, start.Loads node → isDaemonNode node = true →
      node.lastHeartbeat ≤ start.env.now)
    (events : List Event) (now : Nat) (iter : IterOrder)
    (hclock : ClockAdvances start (events ++ [.cleanup now iter]))
    (hrun : Runs.Along (Daemon.step codecs) (fun d e => ¬ TakesFutureRecord codecs d e)
      start.daemon events)
    (id : EndpointId) (node : Node)
    (hsurvives : (start.daemon.run codecs (events ++ [.cleanup now iter])).ctx.nodes[id]? = some node)
    (hdaemon : SERVICE_MARKER_CLIENT ∉ node.services) :
    HeardWithinTtl start events now id node := by
  have hd := isDaemonNode_iff.mpr hdaemon
  have hcleanup : (start.daemon.run codecs (events ++ [.cleanup now iter])).ctx =
      (start.daemon.run codecs events).ctx.cleanup now iter := by
    simp [Daemon.run, Daemon.step]
  rw [hcleanup] at hsurvives
  obtain ⟨hheld, hage⟩ := cleanup_survivor hsurvives
  have hage := hage hd
  rcases Runs.exists_last_change (Daemon.step codecs)
    (fun d : Daemon => d.ctx.nodes[id]?) start.daemon events with
    hsame | ⟨before, e, after, rfl, hchanged, hlast⟩
  · left
    have hloaded : start.ctx.nodes[id]? = some node := hsame.symm.trans hheld
    have hstamp := hstart node (start_nodes start hloaded).2 hd
    exact ⟨hloaded, by omega⟩
  · right
    have hafter : ((start.daemon.run codecs before).step codecs e).ctx.nodes[id]? = some node :=
      hlast.symm.trans hheld
    have hbefore : (start.daemon.run codecs before).ctx.nodes[id]? ≠ some node :=
      fun h => hchanged (hafter.trans h.symm)
    cases hprocessed : e.processedAt with
    | none => exact absurd (step_kept hprocessed hd hafter) hbefore
    | some t =>
      -- Right after the event every heartbeat is at most the time it was processed at.
      have hbound : NotAhead t ((start.daemon.run codecs before).step codecs e).ctx := by
        have hsplit : before ++ e :: after ++ [.cleanup now iter] =
          before ++ e :: (after ++ [.cleanup now iter]) := by simp
        rw [hsplit] at hclock
        obtain ⟨hbegin, hstamps⟩ := hclock.stampsBy hprocessed
        have hprefix : Runs.Along (Daemon.step codecs)
            (fun d e => ¬ TakesFutureRecord codecs d e) start.daemon (before ++ [e]) := by
          have hrun' : before ++ e :: after = (before ++ [e]) ++ after := by simp
          rw [hrun', Runs.along_append] at hrun
          exact hrun.1
        have hinit : NotAhead t start.daemon.ctx := fun a n hn hdn =>
          (hstart n (start_nodes start hn).2 hdn).trans hbegin
        have hall : NotAhead t (start.daemon.run codecs (before ++ [e])).ctx :=
          Runs.invariant_along (I := fun d : Daemon => NotAhead t d.ctx)
            (fun d f h hf => h.step hf.1 hf.2) hinit (Runs.along_and _ hprefix hstamps)
        simpa [Daemon.run] using hall
      have hstamp := hbound id node hafter hd
      refine ⟨before, e, after, t, rfl, hprocessed, hbefore, ?_, by omega⟩
      simpa [Daemon.run] using hafter

theorem survivors_were_heard_listed :
    HeardWithinTtl Sample.onlyBob [Sample.bobListsCarol] 1050 Sample.carol
      (Sample.record Sample.carol "carol" [3] 1000) := by
  refine survivors_were_heard Sample.onlyBob ?_ [Sample.bobListsCarol] 1050 .byId ?_ ⟨?_, trivial⟩
    Sample.carol (Sample.record Sample.carol "carol" [3] 1000) (by decide) (by decide)
  · rintro node (⟨-, hmem⟩ | ⟨text, ticket, (htext : none = some text), -⟩)
    · have hstored : ∀ n ∈ persistedDaemons Sample.alice Sample.onlyBob.storage.loadNodes,
          isDaemonNode n = true → n.lastHeartbeat ≤ 1000 := by decide
      exact hstored node hmem
    · contradiction
  · unfold ClockAdvances
    decide
  · rintro ⟨-, earlier, node, later, hmsg, -, hfuture⟩
    have hlist : earlier ++ node :: later = [Sample.record Sample.carol "carol" [3] 1000] := by
      rcases hmsg with hmsg | hmsg
      · exact (Message.syncRequest.inj hmsg).symm
      · contradiction
    have hmem : node ∈ earlier ++ node :: later := by simp
    rw [hlist] at hmem
    obtain rfl := List.mem_singleton.mp hmem
    revert hfuture
    decide

namespace Sample

def bobListsCarolAhead : Event :=
  sends bob (.syncRequest [record carol "carol" [3] 1000000000]) 1001

end Sample

/-- A record whose heartbeat lies ahead survives a cleanup long after it was last heard of. -/
theorem silent_node_survives :
    ¬ ∀ (start : Start Sample.codecs) (events : List Event) (now : Nat) (iter : IterOrder),
      ClockAdvances start (events ++ [.cleanup now iter]) →
      ∀ (id : EndpointId) (node : Node),
        (start.daemon.run Sample.codecs (events ++ [.cleanup now iter])).ctx.nodes[id]? =
          some node →
        SERVICE_MARKER_CLIENT ∉ node.services → HeardWithinTtl start events now id node := by
  intro hclaim
  have hclock : ClockAdvances Sample.onlyBob ([Sample.bobListsCarolAhead] ++ [.cleanup 5000 .byId]) := by
    unfold ClockAdvances
    decide
  have h := hclaim Sample.onlyBob [Sample.bobListsCarolAhead] 5000 .byId hclock Sample.carol
    (Sample.record Sample.carol "carol" [3] 1000000000) (by decide) (by decide)
  rcases h with ⟨-, hrecent⟩ | ⟨before, e, after, t, hevents, hprocessed, -, -, hrecent⟩
  · revert hrecent
    decide
  · have hmem : e ∈ [Sample.bobListsCarolAhead] := by simp [hevents]
    obtain rfl := List.mem_singleton.mp hmem
    obtain rfl := Option.some.inj hprocessed
    revert hrecent
    decide

end P2pDdns
