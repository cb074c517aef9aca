import P2pDdns.TrustTable

/-!
Who is sent records. Only a `SyncRequest` is answered, and the answer lists the
daemons of the table.
-/

set_option autoImplicit false

namespace P2pDdns
open Std

/-- A `SyncRequest` of another id, heard by a process that runs as a daemon. -/
def AsksDaemon (ctx : Context) (signed : SignedMessage) : Prop :=
  ctx.args.daemon = true ∧ (∃ nodes, signed.message = .syncRequest nodes) ∧
    signed.sender ≠ ctx.me.nodeId

structure DisclosesToMembers (ctx : Context) (signed : SignedMessage) (env : Readings) : Prop where
  responses : ∀ out ∈ (ctx.receive signed env).2, ∀ nodes, out.message = .syncResponse nodes →
    Passed ctx signed env
  records : ¬ Passed ctx signed env → ∀ out ∈ (ctx.receive signed env).2, out.message.nodes = []

section Outgoing
variable {ctx : Context} {signed : SignedMessage} {env : Readings}

/-- The daemons a `SyncRequest` is answered with, from the table it leaves behind. -/
def Context.knownDaemons (ctx : Context) (env : Readings) : List Node :=
  ((env.iter.walk ctx.nodes).map (·.2)).filter isDaemonNode ++ [ctx.currentNodeState env]

theorem mem_knownDaemons {id : EndpointId} {node : Node} (h : ctx.nodes[id]? = some node)
    (hd : isDaemonNode node = true) : node ∈ ctx.knownDaemons env := by
  have hwalk : (id, node) ∈ env.iter.walk ctx.nodes := env.iter.mem_walk.mpr h
  refine List.mem_append_left _ (List.mem_filter.mpr ⟨?_, hd⟩)
  exact List.mem_map.mpr ⟨(id, node), hwalk, rfl⟩

theorem receive_frame (ctx : Context) (signed : SignedMessage) (env : Readings) :
    (ctx.receive signed env).1.me = ctx.me ∧ (ctx.receive signed env).1.args = ctx.args := by
  have hheard := receive_heard ctx signed env
  generalize (ctx.receive signed env).1 = ctx' at hheard ⊢
  induction hheard with
  | refl => exact ⟨rfl, rfl⟩
  | tail _ hlast ih => exact ⟨hlast.frame.1.trans ih.1, hlast.frame.2.1.trans ih.2⟩

theorem syncRequest_outgoing (ctx : Context) (sender : EndpointId) (nodes : List Node)
    (status : VerifyStatus) (env : Readings) :
    (ctx.dispatchMessage sender (.syncRequest nodes) status env).2 =
      let merged := (ctx.dispatchMessage sender (.syncRequest nodes) status env).1
      if merged.args.daemon then
        merged.sendMessageTo sender (.syncResponse (merged.knownDaemons env)) env
      else [] := by
  simp only [Context.dispatchMessage]
  split <;> split <;> simp_all [Context.knownDaemons]

theorem other_outgoing (sender : EndpointId) {message : Message} (status : VerifyStatus)
    (h : ∀ nodes, message ≠ .syncRequest nodes) :
    (ctx.dispatchMessage sender message status env).2 = [] := by
  cases message with
  | syncRequest nodes => exact absurd rfl (h nodes)
  | invited topic rnum addr aliasName services invitor =>
    simp only [Context.dispatchMessage]
    split
    · rfl
    · split <;> rfl
  | introduce invited => rfl
  | heartbeat => rfl
  | _ =>
    simp only [Context.dispatchMessage]
    split <;> rfl

/-- The verification status plays no part in whether and with what a request is answered. -/
theorem receive_outgoing (ctx : Context) (signed : SignedMessage) (env : Readings) :
    ((ctx.receive signed env).2 = [] ∧ ¬ AsksDaemon ctx signed) ∨
    (AsksDaemon ctx signed ∧ ∃ target, (ctx.receive signed env).2 =
      [⟨target, .syncResponse ((ctx.receive signed env).1.knownDaemons env)⟩]) := by
  obtain ⟨hme, hargs⟩ := receive_frame ctx signed env
  by_cases hrequest : ∃ nodes, signed.message = .syncRequest nodes
  · obtain ⟨nodes, hmsg⟩ := hrequest
    have hout := syncRequest_outgoing (ctx.refreshed signed env) signed.sender nodes
      (ctx.status signed env) env
    rw [← hmsg, ← receive_eq] at hout
    simp only [Context.sendMessageTo, hme, hargs] at hout
    by_cases hasks : ctx.args.daemon = true ∧ signed.sender ≠ ctx.me.nodeId
    · right
      rw [if_pos hasks.1, if_neg hasks.2] at hout
      exact ⟨⟨hasks.1, ⟨nodes, hmsg⟩, hasks.2⟩, _, hout⟩
    · refine .inl ⟨?_, fun h => hasks ⟨h.1, h.2.2⟩⟩
      rw [hout]
      split
      · rename_i hdaemon
        rw [if_pos (not_not.mp fun hne => hasks ⟨hdaemon, hne⟩)]
      · rfl
  · refine .inl ⟨?_, fun h => hrequest h.2.1⟩
    rw [receive_eq]
    exact other_outgoing signed.sender (ctx.status signed env)
      fun nodes hmsg => hrequest ⟨nodes, hmsg⟩

end Outgoing

/-- The table is disclosed to members only if and only if a request that is answered passed. -/
theorem disclosed_to_members_iff (ctx : Context) (signed : SignedMessage) (env : Readings) :
    DisclosesToMembers ctx signed env ↔ (AsksDaemon ctx signed → Passed ctx signed env) := by
  rcases receive_outgoing ctx signed env with ⟨hnone, hasks⟩ | ⟨hasks, target, hout⟩
  · refine ⟨fun _ h => absurd h hasks, fun _ => ⟨?_, ?_⟩⟩ <;> simp [hnone]
  · constructor
    · intro h _
      exact h.responses _ (hout ▸ List.mem_singleton_self _) _ rfl
    · intro h
      exact ⟨fun _ _ _ _ => h hasks, fun hnot => absurd (h hasks) hnot⟩

/-- Whoever is answered is sent every active daemon. -/
theorem request_reveals_table {ctx : Context} {signed : SignedMessage} {env : Readings}
    (hasks : AsksDaemon ctx signed) {id : EndpointId} {node : Node}
    (hn : (ctx.receive signed env).1.nodes[id]? = some node) (hd : isDaemonNode node = true) :
    ∃ out ∈ (ctx.receive signed env).2, node ∈ out.message.nodes := by
  rcases receive_outgoing ctx signed env with ⟨-, hnot⟩ | ⟨-, target, hout⟩
  · exact absurd hasks hnot
  · rw [hout]
    exact ⟨_, List.mem_singleton_self _, mem_knownDaemons hn hd⟩

namespace Sample

def daveAsks : SignedMessage := ⟨dave, .syncRequest [], 1001⟩

end Sample

/-- Dave, who is no member, is sent bob's record. -/
theorem disclosed_to_outsider :
    ¬ ∀ (d : Daemon), Reachable Sample.codecs d → ∀ (signed : SignedMessage) (env : Readings),
      DisclosesToMembers d.ctx signed env := by
  intro hclaim
  let d := (Sample.start [Sample.record Sample.bob "bob" [2] 900]).daemon
  have hmembers := hclaim d ⟨_, [], rfl⟩ Sample.daveAsks (Sample.readings 1001)
  have hpassed := (disclosed_to_members_iff _ _ _).mp hmembers ⟨rfl, ⟨[], rfl⟩, by decide⟩
  exact absurd hpassed.1 (by decide)

end P2pDdns
