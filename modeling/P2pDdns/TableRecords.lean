import P2pDdns.Restart

/-!
What holds of every record a daemon keeps. A property that does not look at addresses is kept by
a step if it holds of the records the step takes in and survives the refresh of a sender.
-/

set_option autoImplicit false

namespace P2pDdns
open Std FiniteMaps Relation

structure TablesHold (R : Node → Prop) (ctx : Context) : Prop where
  active : ∀ (id : EndpointId) (node : Node), ctx.nodes[id]? = some node →
    isDaemonNode node = true → R node
  trusted : ∀ (id : EndpointId) (node : Node), ctx.trustedNodes[id]? = some node → R node

def StoredHold (R : Node → Prop) (storage : Storage) : Prop :=
  ∀ (id : EndpointId) (node : Node), storage.nodes[id]? = some node → R node

/-- Addresses come and go without a say in the property. -/
def AddressBlind (R : Node → Prop) : Prop := ∀ node addr, R node → R { node with addr := addr }

/-- What a message may bring in and bring about under the property. -/
structure Admits (R : Node → Prop) (ctx : Context) (signed : SignedMessage) (env : Readings) :
    Prop where
  refreshed : Passed ctx signed env → ∀ old : Node, old.nodeId = signed.sender → R old →
    R { old with lastHeartbeat := env.refreshNow }
  announced : ∀ ann, Accepts ctx signed env ann → isDaemonNode (ann.incoming signed.sender env) →
    R (ann.incoming signed.sender env)
  listed : ctx.args.daemon = false ∨ Passed ctx signed env → ∀ node, Lists signed node →
    isDaemonNode node = true → R node

variable {R : Node → Prop} {ctx ctx' : Context}

namespace TablesHold

theorem mergeNode (haddr : AddressBlind R) {existing : Option Node} {incoming : Node}
    (he : ∀ node, existing = some node → isDaemonNode node = true → R node)
    (hi : isDaemonNode incoming = true → R incoming) :
    isDaemonNode (mergeNode existing incoming).1 = true → R (P2pDdns.mergeNode existing incoming).1 :=
  mergeNode_induct (P := fun node => isDaemonNode node = true → R node)
    (fun node addr h hd => haddr node addr (h (by rwa [isDaemonNode_addr] at hd))) he hi

theorem trustDaemonNode (h : TablesHold R ctx) (haddr : AddressBlind R) {node : Node}
    (hnode : isDaemonNode node = true → R node) : TablesHold R (ctx.trustDaemonNode node) := by
  rcases Context.trustDaemonNode_cases ctx node with ⟨-, heq⟩ | ⟨-, hd, heq⟩
  · rw [heq]
    exact h
  · rw [heq]
    have hmerged : R (P2pDdns.mergeNode ctx.trustedNodes[node.nodeId]? node).1 :=
      mergeNode_induct haddr (fun old hold => h.trusted _ old hold) (hnode hd)
    exact ⟨h.active, forall_insert h.trusted hmerged⟩

theorem upsertActiveNode (h : TablesHold R ctx) {node : Node}
    (hnode : isDaemonNode node = true → R node) : TablesHold R (ctx.upsertActiveNode node) := by
  rcases Context.upsertActiveNode_cases ctx node with ⟨-, heq⟩ | ⟨-, heq⟩
  · rw [heq]
    exact h
  · rw [heq]
    exact ⟨forall_insert h.active hnode, h.trusted⟩

theorem admitNode (h : TablesHold R ctx) (haddr : AddressBlind R) {node : Node}
    (hnode : isDaemonNode node = true → R node) : TablesHold R (ctx.admitNode node) :=
  (h.trustDaemonNode haddr hnode).upsertActiveNode hnode

theorem heard {start : Context} {signed : SignedMessage} {env : Readings} (h : TablesHold R ctx)
    (haddr : AddressBlind R) (hkeyed : NodesKeyed ctx) (hadmits : Admits R start signed env)
    (hc : Heard start signed env ctx ctx') : TablesHold R ctx' := by
  cases hc with
  | @touched old hpassed hold =>
    refine ⟨forall_insert h.active fun hd => ?_, h.trusted⟩
    exact hadmits.refreshed hpassed old (hkeyed _ old hold) (h.active _ old hold hd)
  | @observed old sock hpassed _ hold =>
    have hrefreshed : isDaemonNode (observedNode old signed.sender sock env.refreshNow) = true →
        R (observedNode old signed.sender sock env.refreshNow) := by
      intro hd
      have htouched := hadmits.refreshed hpassed old (hkeyed _ old hold) (h.active _ old hold hd)
      exact haddr _ (.fromParts signed.sender [.ip sock]) htouched
    refine upsertActiveNode ?_ hrefreshed
    rcases Context.refreshTrustedNode_cases ctx (observedNode old signed.sender sock env.refreshNow)
      signed.sender with heq | ⟨-, hd, heq⟩
    · rw [heq]
      exact h
    · rw [heq]
      exact ⟨h.active, forall_insert h.trusted (hrefreshed hd)⟩
  | announced haccepts =>
    exact h.admitNode haddr (mergeNode haddr (fun old hold => h.active _ old hold)
      (hadmits.announced _ haccepts))
  | @listed earlier later node hmsg hgate _ _ =>
    refine h.admitNode haddr (mergeNode haddr (fun old hold => h.active _ old hold) fun hd => ?_)
    have hlists : Lists signed node := ⟨_, hmsg, by simp⟩
    have hblind : ∀ observed, R node → R (listedNode signed.sender observed node) := by
      intro observed hn
      unfold listedNode
      split
      · exact haddr node _ hn
      · exact hn
    have hdaemon : ∀ observed, isDaemonNode (listedNode signed.sender observed node) = true →
        isDaemonNode node = true := by
      intro observed hd
      unfold listedNode at hd
      split at hd <;> exact hd
    exact hblind _ (hadmits.listed hgate node hlists (hdaemon _ hd))
  | left _ _ => exact ⟨forall_erase h.active _, h.trusted⟩

end TablesHold
section Step
variable {codecs : Codecs} {d : Daemon} {e : Event}

structure TakesIn (R : Node → Prop) (codecs : Codecs) (d : Daemon) (e : Event) : Prop where
  message : ∀ signed env, e = .received (some signed) env → Admits R d.ctx signed env
  ticket : ∀ client ticket env, e = .command client (.addNode ticket) env →
    ∀ node, AddsNode codecs d ticket node → R node

theorem TablesHold.change {start d d' : Daemon} (h : TablesHold R d.ctx) (haddr : AddressBlind R)
    (hkeyed : NodesKeyed d.ctx) (htakes : TakesIn R codecs start e)
    (hc : Change codecs start e d d') : TablesHold R d'.ctx := by
  cases hc with
  | heard hheard => exact h.heard haddr hkeyed (htakes.message _ _ rfl) hheard
  | expired => exact ⟨forall_erase h.active _, h.trusted⟩
  | registered _ _ _ =>
    refine ⟨forall_insert h.active fun hd => ?_, h.trusted⟩
    rw [isDaemonNode_clientNode] at hd
    contradiction
  | @added _ _ _ _ parsed _ hparsed htopic =>
    exact h.admitNode haddr fun _ => htakes.ticket _ _ _ rfl _ ⟨parsed, hparsed, htopic, rfl⟩
  | revoked _ _ _ => exact ⟨forall_erase h.active _, forall_erase h.trusted _⟩
  | saved | persisted | paused => exact ⟨h.active, h.trusted⟩

theorem TablesHold.step (h : TablesHold R d.ctx) (haddr : AddressBlind R) (ht : TrustTable d.ctx)
    (htakes : TakesIn R codecs d e) : TablesHold R (d.step codecs e).ctx := by
  have hboth := changes_induct (I := fun u : Daemon => TrustTable u.ctx ∧ TablesHold R u.ctx)
    (step_changes codecs d e) ⟨ht, h⟩ fun _ _ _ hc hu =>
      ⟨TrustTable.change hc hu.1, hu.2.change haddr hu.1.nodesKeyed htakes hc⟩
  exact hboth.2

theorem stored_origin {id : EndpointId} {node : Node}
    (h : (d.step codecs e).ctx.storage.nodes[id]? = some node) :
    d.ctx.storage.nodes[id]? = some node ∨ (∃ i : EndpointId, d.ctx.trustedNodes[i]? = some node) ∨
      ∃ client ticket env, e = .command client (.addNode ticket) env ∧
        AddsNode codecs d ticket node := by
  cases e with
  | received signed env =>
    cases signed with
    | none => exact .inl h
    | some signed => exact .inl (by rwa [Daemon.step, receive_storage] at h)
  | cleanup now iter => exact .inl h
  | save iter fault =>
    cases fault with
    | some fault => exact .inl h
    | none =>
      rcases getElem?_insertAll_cases h with ⟨hsaved, -⟩ | hn
      · obtain ⟨i, hi, -⟩ := mem_savedNodes.mp hsaved
        exact .inr (.inl ⟨i, hi⟩)
      · exact .inl hn
  | authenticate authReq mode env =>
    left
    simp only [Daemon.step, authenticateAndRegister] at h
    split at h
    · exact h
    · split at h
      · split at h <;> exact h
      · exact h
  | command client cmd env =>
    simp only [Daemon.step, runCommand] at h
    split at h
    · cases cmd with
      | addNode ticket =>
        rcases @handleAddNode_cases codecs d ticket env with
          ⟨text, heq, -⟩ | ⟨added, hadds, ⟨fault, text, -, heq⟩ | ⟨text, -, heq⟩⟩
        · rw [handleCommand, heq] at h
          exact .inl h
        · rw [handleCommand, heq] at h
          exact .inl (by simpa [respond] using h)
        · rw [handleCommand, heq] at h
          rcases getElem?_insert_cases h with ⟨-, rfl⟩ | ⟨-, hn⟩
          · exact .inr (.inr ⟨client, ticket, env, rfl, hadds⟩)
          · exact .inl hn
      | removeNode text =>
        rcases @handleRemoveNode_cases codecs d text env with
          ⟨text', heq, -⟩ | ⟨nodeId, -, ⟨fault, text', -, heq⟩ | ⟨text', -, heq⟩⟩
        · rw [handleCommand, heq] at h
          exact .inl h
        · rw [handleCommand, heq] at h
          exact .inl h
        · rw [handleCommand, heq] at h
          exact .inl (getElem?_erase_cases h).2
      | query | status | getTicket | pause | resume | shutdown => exact .inl h
    · exact .inl h

theorem StoredHold.step (h : StoredHold R d.ctx.storage) (htables : TablesHold R d.ctx)
    (htakes : TakesIn R codecs d e) : StoredHold R (d.step codecs e).ctx.storage := by
  intro id node hn
  rcases stored_origin hn with hn | ⟨i, hi⟩ | ⟨client, ticket, env, heq, hadds⟩
  · exact h id node hn
  · exact htables.trusted i node hi
  · exact htakes.ticket client ticket env heq node hadds

end Step
end P2pDdns
