import P2pDdns.Accesses

/-!
`RemoveNode` beside a turn of the event loop. A turn that reads the trusted table before
the removal and writes what it found after it brings the removed id back.
-/

set_option autoImplicit false

namespace P2pDdns
open Std FiniteMaps Interleaving

/-- A turn of the event loop: a save, or a message verified and processed. -/
inductive Turn where
  | save (iter : IterOrder) (fault : Option String)
  | message (signed : SignedMessage) (env : Readings)

def Turn.task (self : Fixed) : Turn → Task Unit
  | .save iter fault => do
    let _ ← Task.save self iter fault
    return ()
  | .message signed env => do
    let _ ← Task.receive self signed env
    return ()

def Turn.LeavesOut (id : EndpointId) : Turn → Prop
  | .save _ _ => True
  | .message signed _ =>
    ¬ (signed.sender = id ∧ signed.message.isInvited = true) ∧
      ∀ node ∈ signed.message.nodes, node.nodeId ≠ id

/-- The steps of the interleaving that overtake each other: `RemoveNode` untrusts `id` after
the turn has found it trusted, and the turn writes it back later. -/
def Turn.Overtakes (turn : Turn) (id : EndpointId) (d : Daemon) (t : Trace Op) : Prop :=
  match turn with
  | .save _ _ =>
    id ∈ d.ctx.trustedNodes ∧
      [(Side.first, .getTrusted id), (.second, .removeTrusted id)].Sublist t ∧
      ∃ nodes, [(Side.second, .removeStored id none), (.first, .saveNodes nodes none)].Sublist t
  | .message _ _ =>
    ∃ node, [(Side.first, .checkTrusted id), (.second, .removeTrusted id),
      (.first, .insertTrusted id node)].Sublist t

def Gone (id : EndpointId) (d : Daemon) : Prop :=
  id ∉ d.ctx.trustedNodes ∧ id ∉ d.ctx.storage.nodes

def Task.beforeUntrust (nodeId : EndpointId) : Task (Option String) := do
  let domain ← lookupDomain nodeId
  .exec (.removeClient nodeId)
  .exec (.removeNode nodeId)
  return domain

theorem Task.beforeUntrust_issues (nodeId : EndpointId) :
    (beforeUntrust nodeId).Issues (fun _ _ => True) (·.Admits fun _ => False) fun _ => True := by
  refine Prog.issues_then ?_ fun domain => ?_
  · refine Prog.issues_then (Prog.issues_any ⟨trivial, trivial⟩) fun active => ?_
    cases active with
    | some node => exact Prog.issues_pure trivial
    | none =>
      exact Prog.issues_then (Prog.issues_any ⟨trivial, trivial⟩) fun _ => Prog.issues_pure trivial
  · exact Prog.issues_then (Prog.issues_any ⟨trivial, trivial⟩) fun _ =>
      Prog.issues_then (Prog.issues_any ⟨trivial, trivial⟩) fun _ => Prog.issues_pure trivial

/-- An interleaving with `RemoveNode`, cut where the id is untrusted and where its record
leaves the database; `left` is what the turn still has to do when the id is untrusted. -/
structure Cut {α : Type} (p : Task α) (id : EndpointId) (d : Daemon) (t : Trace Op) where
  front : Trace Op
  mid : Trace Op
  back : Trace Op
  left : Task α
  result : α
  trace : t = front ++ (.second, .removeTrusted id) ::
    (mid ++ (.second, .removeStored id none) :: back)
  lookups : ∀ o, (Side.second, o) ∈ front → o.Admits fun _ => False
  idle : ∀ o, (Side.second, o) ∉ mid ++ back
  before : ∃ q q' : Task (Option String), Steps Op.apply p q d front left q'
  after : ∃ q q' : Task CommandOutcome,
    Steps Op.apply left q ((Op.removeTrusted id).apply (after Op.apply d front))
      (mid ++ (.second, .removeStored id none) :: back) (.done result) q'

theorem Cut.exists {α : Type} {codecs : Codecs} {p : Task α} {id : EndpointId} {d : Daemon}
    {t : Trace Op} (h : Interleaves Op.apply p (Task.removeNode codecs id none) d t) :
    Nonempty (Cut p id d t) := by
  obtain ⟨result, outcome, h⟩ := h
  have hremove : Task.removeNode codecs id none =
      Task.beforeUntrust id >>= fun domain => .act (.removeTrusted id) fun _ =>
        Prog.done () >>= fun _ => .act (.removeStored id none) fun d =>
          pure (Task.removalOutcome codecs id domain
            ((d.ctx.storage.removeNode id none).map fun _ => ())) := by
    rw [Task.beforeUntrust, Prog.bind_assoc]
    rfl
  rw [hremove] at h
  obtain ⟨front, rest, left, domain, rfl, hfront, hrest⟩ := h.second_reaches
  obtain ⟨mid, back, left', u, rfl, hmid, hback⟩ := hrest.second_reaches
  have hlookups := hfront.second_issues (Task.beforeUntrust_issues id)
  have hidle : ∀ o, (Side.second, o) ∉ mid := fun o ho =>
    hmid.second_issues (G := fun _ => False) (Q := fun _ => True) trivial o ho
  have hidle' : ∀ o, (Side.second, o) ∉ back := fun o ho =>
    hback.second_issues (G := fun _ => False) (Q := fun _ => True) trivial o ho
  refine ⟨⟨front, mid, back, left, result, rfl, hlookups, ?_, ⟨_, _, hfront⟩, ⟨_, _, hrest⟩⟩⟩
  intro o ho
  rcases List.mem_append.mp ho with ho | ho
  · exact hidle o ho
  · exact hidle' o ho

namespace Cut
variable {α : Type} {p : Task α} {id : EndpointId} {d : Daemon} {t : Trace Op}

def rest (c : Cut p id d t) : Trace Op := c.mid ++ (.second, .removeStored id none) :: c.back

def untrusted (c : Cut p id d t) : Daemon :=
  (Op.removeTrusted id).apply (Interleaving.after Op.apply d c.front)

variable (c : Cut p id d t)

theorem eq_rest : t = c.front ++ (.second, .removeTrusted id) :: c.rest := c.trace

theorem after_eq : Interleaving.after Op.apply d t = Interleaving.after Op.apply c.untrusted c.rest := by
  conv_lhs => rw [c.eq_rest]
  rw [after_append, after_cons]
  rfl

theorem mem_rest_of_back {e : Side × Op} (h : e ∈ c.back) : e ∈ c.rest := by
  simp [rest, h]

theorem second_rest {o : Op} (h : (Side.second, o) ∈ c.rest) : o = .removeStored id none := by
  simp only [rest, List.mem_append, List.mem_cons] at h
  rcases h with h | h | h
  · exact absurd (List.mem_append_left c.back h) (c.idle o)
  · exact (Prod.mk.inj h).2
  · exact absurd (List.mem_append_right c.mid h) (c.idle o)

section Issues
variable {R : Op → Daemon → Prop} {I : Daemon → Prop} {G : Op → Prop} {Q : α → Prop}

theorem front_issues (hp : p.Issues R G Q)
    (hR : ∀ o s, (Side.first, o) ∈ c.front → I s → R o s)
    (hG : ∀ (o : Op) (s : Daemon), G o → I s → I (o.apply s))
    (hlookups : ∀ (o : Op) (s : Daemon), o.Admits (fun _ => False) → I s → I (o.apply s))
    (hd : I d) :
    (∀ o, (Side.first, o) ∈ c.front → G o) ∧ c.left.Issues R G Q ∧
      I (Interleaving.after Op.apply d c.front) := by
  obtain ⟨q, q', hsteps⟩ := c.before
  exact hsteps.issues hp hR hG (fun o s ho => hlookups o s (c.lookups o ho)) hd

theorem rest_issues (hleft : c.left.Issues R G Q)
    (hR : ∀ o s, (Side.first, o) ∈ c.rest → I s → R o s)
    (hG : ∀ (o : Op) (s : Daemon), G o → I s → I (o.apply s))
    (hremove : ∀ s, I s → I ((Op.removeStored id none).apply s)) (hs : I c.untrusted) :
    ∀ o, (Side.first, o) ∈ c.rest → G o := by
  obtain ⟨q, q', hsteps⟩ := c.after
  refine (hsteps.issues hleft hR hG ?_ hs).1
  intro o s ho
  rw [c.second_rest ho]
  exact hremove s

end Issues

theorem sublist_removal {l l' : Trace Op} :
    (l ++ (.second, .removeTrusted id) :: l').Sublist t ↔ l.Sublist c.front ∧ l'.Sublist c.rest := by
  conv_lhs => rw [c.eq_rest]
  refine sublist_through ?_ ?_
  · intro h
    exact (c.lookups _ h).2
  · intro h
    exact nomatch c.second_rest h

theorem sublist_stored {l' : Trace Op} :
    ((.second, .removeStored id none) :: l').Sublist t ↔ l'.Sublist c.back := by
  have heq : t = (c.front ++ (.second, .removeTrusted id) :: c.mid) ++
      (.second, .removeStored id none) :: c.back := by simp [c.trace]
  conv_lhs => rw [heq, ← List.nil_append (_ :: l')]
  refine (sublist_through ?_ ?_).trans (and_iff_right (List.nil_sublist _))
  · intro h
    rcases List.mem_append.mp h with h | h
    · exact (c.lookups _ h).2
    · rcases List.mem_cons.mp h with h | h
      · exact nomatch h
      · exact c.idle _ (List.mem_append_left c.back h)
  · intro h
    exact c.idle _ (List.mem_append_right c.mid h)

theorem trusted_iff (hfirst : ∀ o, (Side.first, o) ∈ c.rest → o ≠ .removeTrusted id) :
    id ∈ (Interleaving.after Op.apply d t).ctx.trustedNodes ↔
      ∃ node, (Side.first, .insertTrusted id node) ∈ c.rest := by
  have hstart : id ∉ c.untrusted.ctx.trustedNodes := by
    simp [untrusted, Op.apply, Daemon.setTrustedNodes]
  have hrun := Runs.exec_iff_or (effect Op.apply) (P := fun d => id ∈ d.ctx.trustedNodes)
    (W := fun e => ∃ node, e.2 = .insertTrusted id node) c.untrusted c.rest ?_
  · rw [c.after_eq]
    constructor
    · intro h
      rcases hrun.mp h with h | ⟨⟨side, o⟩, he, node, rfl⟩
      · exact absurd h hstart
      · cases side with
        | first => exact ⟨node, he⟩
        | second =>
          have hremoval := c.second_rest he
          contradiction
    · rintro ⟨node, he⟩
      exact hrun.mpr (.inr ⟨_, he, node, rfl⟩)
  · intro s e he
    refine mem_trustedNodes_apply ?_
    obtain ⟨side, o⟩ := e
    cases side with
    | first => exact hfirst o he
    | second =>
      rw [c.second_rest he]
      simp

theorem stored_iff (hfirst : ∀ o, (Side.first, o) ∈ c.back → ∀ fault, o ≠ .removeStored id fault) :
    id ∈ (Interleaving.after Op.apply d t).ctx.storage.nodes ↔
      ∃ nodes, (Side.first, .saveNodes nodes none) ∈ c.back ∧ ∃ node ∈ nodes, node.nodeId = id := by
  have hsecond : ∀ o, (Side.second, o) ∉ c.back := fun o ho =>
    c.idle o (List.mem_append_right c.mid ho)
  let removed := (Op.removeStored id none).apply (Interleaving.after Op.apply c.untrusted c.mid)
  have hstart : id ∉ removed.ctx.storage.nodes := by
    simp [removed, Op.apply, Daemon.setStorage, Storage.removeNode, Storage.transact]
  have hafter : Interleaving.after Op.apply d t = Interleaving.after Op.apply removed c.back := by
    rw [c.after_eq, rest, after_append, after_cons]
  have hrun := Runs.exec_iff_or (effect Op.apply) (P := fun d => id ∈ d.ctx.storage.nodes)
    (W := fun e => ∃ nodes, e.2 = .saveNodes nodes none ∧ ∃ node ∈ nodes, node.nodeId = id)
    removed c.back ?_
  · rw [hafter]
    constructor
    · intro h
      rcases hrun.mp h with h | ⟨⟨side, o⟩, he, nodes, rfl, hnodes⟩
      · exact absurd h hstart
      · cases side with
        | first => exact ⟨nodes, he, hnodes⟩
        | second => exact absurd he (hsecond _)
    · rintro ⟨nodes, he, hnodes⟩
      exact hrun.mpr (.inr ⟨_, he, nodes, rfl, hnodes⟩)
  · intro s e he
    refine mem_stored_apply ?_
    obtain ⟨side, o⟩ := e
    cases side with
    | first => exact hfirst o he
    | second => exact absurd he (hsecond o)

end Cut

section Message
variable {id : EndpointId} {d : Daemon} {t : Trace Op} {signed : SignedMessage} {env : Readings}

theorem message_issues {self : Fixed} {R : Op → Daemon → Prop} {S : EndpointId → Prop}
    (hkeyed : ∀ o d, R o d → Keyed d)
    (htrusted : ∀ o d, R o d → signed.sender ∈ d.ctx.trustedNodes → S signed.sender)
    (hinvited : signed.message.isInvited = true → S signed.sender)
    (hlisted : ∀ node ∈ signed.message.nodes, S node.nodeId) :
    (Turn.task self (.message signed env)).Issues R (·.Admits S) fun _ => True :=
  Prog.issues_bind (Task.receive_issues hkeyed htrusted hinvited hlisted env)
    fun _ _ => Prog.issues_pure trivial

theorem message_admits (hd : Keyed d)
    (c : Cut (Turn.task d.ctx.fixed (.message signed env)) id d t) :
    Keyed c.untrusted ∧ ∀ o, (Side.first, o) ∈ c.rest → o.Admits fun _ => True := by
  have hissues : (Turn.task d.ctx.fixed (.message signed env)).Issues (fun _ => Keyed)
      (·.Admits fun _ => True) fun _ => True :=
    message_issues (fun _ _ h => h) (fun _ _ _ _ => trivial) (fun _ => trivial)
      fun _ _ => trivial
  obtain ⟨-, hleft, hkeyed⟩ := c.front_issues hissues (fun _ _ _ h => h)
    (fun _ _ ho h => h.apply ho.1) (fun _ _ ho h => h.apply ho.1) hd
  have huntrusted : Keyed c.untrusted := hkeyed.apply trivial
  exact ⟨huntrusted, c.rest_issues hleft (fun _ _ _ h => h) (fun _ _ ho h => h.apply ho.1)
    (fun _ h => h.apply trivial) huntrusted⟩

/-- A turn that trusts the id after the removal found it trusted before. -/
theorem checked_before (hd : Keyed d) (hleaves : Turn.LeavesOut id (.message signed env))
    (c : Cut (Turn.task d.ctx.fixed (.message signed env)) id d t) {node : Node}
    (h : (Side.first, .insertTrusted id node) ∈ c.rest) :
    (Side.first, .checkTrusted id) ∈ c.front := by
  by_contra hcheck
  obtain ⟨hinvited, hlisted⟩ := hleaves
  let R (_ : Op) (d : Daemon) : Prop := Keyed d ∧ (id ∉ d.ctx.trustedNodes ∨ signed.sender ≠ id)
  have hissues : (Turn.task d.ctx.fixed (.message signed env)).Issues R
      (·.Admits (· ≠ id)) fun _ => True := by
    refine message_issues (fun _ _ h => h.1) ?_ ?_ hlisted
    · rintro _ d' ⟨-, hrely⟩ hmem rfl
      rcases hrely with hrely | hrely
      · exact hrely hmem
      · exact hrely rfl
    · intro hinv hsender
      exact hinvited ⟨hsender, hinv⟩
  -- A message from another id never trusts this one; one from it has not been verified yet.
  have hleft : c.left.Issues R (·.Admits (· ≠ id)) fun _ => True := by
    by_cases hsender : signed.sender = id
    · obtain ⟨q, q', hsteps⟩ := c.before
      have hwaits : c.left = Turn.task d.ctx.fixed (.message signed env) :=
        hsteps.first_waits (by rwa [hsender])
      rw [hwaits]
      exact hissues
    · exact (c.front_issues (I := Keyed) hissues (fun _ _ _ h => ⟨h, .inr hsender⟩)
        (fun _ _ ho h => h.apply ho.1) (fun _ _ ho h => h.apply ho.1) hd).2.1
  have huntrusted : id ∉ c.untrusted.ctx.trustedNodes := by
    simp [Cut.untrusted, Op.apply, Daemon.setTrustedNodes]
  have hadmits := c.rest_issues (I := fun d => Keyed d ∧ id ∉ d.ctx.trustedNodes) hleft
    (fun _ _ _ h => ⟨h.1, .inl h.2⟩) ?_ ?_ ⟨(message_admits hd c).1, huntrusted⟩
  · exact (hadmits _ h).2 rfl
  · rintro o s ⟨hfiles, htrusts⟩ ⟨hkeyed, hnot⟩
    refine ⟨hkeyed.apply hfiles, fun hmem => ?_⟩
    rw [mem_trustedNodes_apply] at hmem
    · rcases hmem with hmem | ⟨n, rfl⟩
      · exact hnot hmem
      · exact htrusts rfl
    · rintro rfl
      exact htrusts
  · rintro s ⟨hkeyed, hnot⟩
    exact ⟨hkeyed.apply trivial, by simpa [Op.apply] using hnot⟩

theorem message_gone_iff (hd : Keyed d) (hleaves : Turn.LeavesOut id (.message signed env))
    (c : Cut (Turn.task d.ctx.fixed (.message signed env)) id d t) :
    Gone id (after Op.apply d t) ↔ ¬ Turn.Overtakes (.message signed env) id d t := by
  obtain ⟨-, hadmits⟩ := message_admits hd c
  have htrusted := c.trusted_iff fun o ho => by
    rintro rfl
    exact (hadmits _ ho).2
  have hstored : id ∉ (after Op.apply d t).ctx.storage.nodes := by
    rw [c.stored_iff fun o ho fault => by
      rintro rfl
      exact (hadmits _ (c.mem_rest_of_back ho)).2]
    rintro ⟨nodes, ho, -⟩
    exact (hadmits _ (c.mem_rest_of_back ho)).2
  have hsteps : ∀ node, [(Side.first, Op.checkTrusted id), (.second, .removeTrusted id),
      (.first, .insertTrusted id node)].Sublist t ↔
        (Side.first, .checkTrusted id) ∈ c.front ∧ (Side.first, .insertTrusted id node) ∈ c.rest := by
    intro node
    rw [← List.singleton_sublist, ← List.singleton_sublist (l := c.rest)]
    exact c.sublist_removal (l := [_])
  rw [Gone, htrusted, and_iff_left hstored]
  refine not_congr ⟨?_, ?_⟩
  · rintro ⟨node, hnode⟩
    exact ⟨node, (hsteps node).mpr ⟨checked_before hd hleaves c hnode, hnode⟩⟩
  · rintro ⟨node, hnode⟩
    exact ⟨node, ((hsteps node).mp hnode).2⟩

end Message

section Save
variable {id : EndpointId} {d : Daemon} {t : Trace Op} {iter : IterOrder} {fault : Option String}

def Op.Saves : Op → Prop
  | .trustedIds => True
  | .getTrusted _ => True
  | .saveNodes _ _ => True
  | _ => False

theorem saves_trustedNodes {o : Op} (ho : o.Saves) (d : Daemon) :
    (o.apply d).ctx.trustedNodes = d.ctx.trustedNodes := by
  cases o with
  | saveNodes nodes fault => simp [Op.apply]
  | trustedIds => rfl
  | getTrusted id => rfl
  | getNode _ | touchNode _ _ | insertNode _ _ | removeNode _ | nodeIds | checkTrusted _
  | insertTrusted _ _ | removeTrusted _ | addEndpointInfo _ | removeClient _
  | removeStored _ _ => exact ho.elim

theorem admits_trustedNodes {o : Op} (ho : o.Admits fun _ => False) (d : Daemon) :
    (o.apply d).ctx.trustedNodes = d.ctx.trustedNodes := by
  cases o with
  | insertTrusted _ _ => exact ho.2.elim
  | removeTrusted _ => exact ho.2.elim
  | saveNodes _ _ => exact ho.2.elim
  | removeStored _ _ => exact ho.2.elim
  | touchNode id now =>
    simp only [Op.apply]
    cases d.ctx.nodes[id]? <;> rfl
  | getNode _ | insertNode _ _ | removeNode _ | nodeIds | checkTrusted _ | getTrusted _
  | trustedIds | addEndpointInfo _ | removeClient _ => rfl

theorem save_issues {self : Fixed} {R : Op → Daemon → Prop} {G : Op → Prop}
    {P : EndpointId × Node → Prop} (hids : G .trustedIds) (hget : ∀ id, G (.getTrusted id))
    (hfound : ∀ id d, R (.getTrusted id) d → ∀ node, d.ctx.trustedNodes[id]? = some node →
      P (id, node))
    (hsave : ∀ nodes, (∀ node ∈ nodes, ∃ id, P (id, node)) → G (.saveNodes nodes fault)) :
    (Turn.task self (.save iter fault)).Issues R G fun _ => True := by
  have hwalk : ∀ ids, (Task.collect Task.getTrusted ids).Issues R G
      fun entries => ∀ e ∈ entries, P e := fun ids =>
    Task.collect_issues (fun id => Prog.issues_op (hget id) (hfound id)) ids
  refine Prog.issues_then ?_ fun _ => Prog.issues_pure trivial
  refine Prog.issues_bind (Q := fun entries => ∀ e ∈ entries, P e) ?_ fun entries hentries => ?_
  · exact Prog.issues_then (Prog.issues_any hids) hwalk
  · refine Prog.issues_op (hsave _ ?_) fun _ _ => trivial
    intro node hnode
    obtain ⟨e, he, rfl⟩ := List.mem_map.mp hnode
    exact ⟨e.1, hentries e (List.mem_of_mem_filter he)⟩

theorem save_frame (c : Cut (Turn.task d.ctx.fixed (.save iter fault)) id d t) :
    (∀ o, (Side.first, o) ∈ c.front → o.Saves) ∧ (∀ o, (Side.first, o) ∈ c.rest → o.Saves) ∧
      (after Op.apply d c.front).ctx.trustedNodes = d.ctx.trustedNodes := by
  have hissues : (Turn.task d.ctx.fixed (.save iter fault)).Issues (fun _ _ => True) Op.Saves
      fun _ => True :=
    save_issues (P := fun _ => True) trivial (fun _ => trivial) (fun _ _ _ _ _ => trivial)
      fun _ _ => trivial
  obtain ⟨hfront, hleft, hframe⟩ := c.front_issues
    (I := fun s => s.ctx.trustedNodes = d.ctx.trustedNodes) hissues (fun _ _ _ _ => trivial)
    (fun _ s ho h => (saves_trustedNodes ho s).trans h)
    (fun _ s ho h => (admits_trustedNodes ho s).trans h) rfl
  exact ⟨hfront, c.rest_issues (I := fun _ => True) hleft (fun _ _ _ _ => trivial)
    (fun _ _ _ _ => trivial) (fun _ _ => trivial) trivial, hframe⟩

/-- Records of the id are only saved after the removal if the walk came to it before. -/
theorem visited_before (hd : TrustTable d.ctx)
    (c : Cut (Turn.task d.ctx.fixed (.save iter fault)) id d t) {nodes : List Node}
    {written : Option String} (h : (Side.first, .saveNodes nodes written) ∈ c.rest) {node : Node}
    (hnode : node ∈ nodes) (hid : node.nodeId = id) :
    id ∈ d.ctx.trustedNodes ∧ (Side.first, .getTrusted id) ∈ c.front := by
  by_contra hvisit
  let R (o : Op) (s : Daemon) : Prop := ∀ a, o = .getTrusted a →
    ∀ node, s.ctx.trustedNodes[a]? = some node → node.nodeId ≠ id
  let G (o : Op) : Prop := o.Saves ∧
    ∀ nodes written, o = .saveNodes nodes written → ∀ node ∈ nodes, node.nodeId ≠ id
  have hissues : (Turn.task d.ctx.fixed (.save iter fault)).Issues R G fun _ => True := by
    refine save_issues (P := fun e => e.2.nodeId ≠ id) ⟨trivial, nofun⟩ (fun _ => ⟨trivial, nofun⟩)
      (fun a s hR => hR a rfl) ?_
    intro nodes hnodes
    refine ⟨trivial, ?_⟩
    rintro nodes written ⟨⟩ node hnode
    obtain ⟨_, hne⟩ := hnodes node hnode
    exact hne
  have hfront : ∀ o s, (Side.first, o) ∈ c.front → s.ctx.trustedNodes = d.ctx.trustedNodes →
      R o s := by
    rintro _ s ho hs a rfl node hfound
    rw [hs] at hfound
    rw [hd.trustedKeyed a node hfound]
    rintro rfl
    exact hvisit ⟨mem_of_getElem? hfound, ho⟩
  have hrest : ∀ o s, (Side.first, o) ∈ c.rest →
      s.ctx.trustedNodes = d.ctx.trustedNodes.erase id → R o s := by
    rintro _ s - hs a rfl node hfound
    rw [hs] at hfound
    obtain ⟨hne, hfound⟩ := getElem?_erase_cases hfound
    rw [hd.trustedKeyed a node hfound]
    exact hne.symm
  obtain ⟨-, hleft, hframe⟩ := c.front_issues hissues hfront
    (fun _ s ho h => (saves_trustedNodes ho.1 s).trans h)
    (fun _ s ho h => (admits_trustedNodes ho s).trans h) rfl
  have huntrusted : c.untrusted.ctx.trustedNodes = d.ctx.trustedNodes.erase id := by
    simp [Cut.untrusted, Op.apply, Daemon.setTrustedNodes, hframe]
  have hsaved := c.rest_issues hleft hrest (fun _ s ho h => (saves_trustedNodes ho.1 s).trans h)
    (fun s h => by simpa [Op.apply] using h) huntrusted
  exact (hsaved _ h).2 nodes written rfl node hnode hid

theorem collect_follows {I : Daemon → Prop} {G : Op → Prop} {found : Node}
    (hget : ∀ a, G (.getTrusted a)) (hfound : ∀ s, I s → s.ctx.trustedNodes[id]? = some found)
    (ids : List EndpointId) :
    (Task.collect Task.getTrusted ids).Follows I (.getTrusted id) G
      fun entries => (id, found) ∈ entries := by
  have hwalk : ∀ ids, (Task.collect Task.getTrusted ids).Issues (fun _ _ => True) G
      fun _ => True := fun ids =>
    (Task.collect_issues (P := fun _ => True) (fun a => Prog.issues_op (hget a)
      fun _ _ _ _ => trivial) ids).weaken fun _ _ => trivial
  induction ids with
  | nil => trivial
  | cons a ids ih =>
    refine Prog.follows_bind (Q := fun got => a = id ∧ got = some found) ?_ ?_ ?_
    · refine Prog.follows_op fun s hs hop => ?_
      obtain rfl : a = id := Op.getTrusted.inj hop
      exact ⟨rfl, hfound s hs⟩
    · rintro _ ⟨rfl, rfl⟩
      refine Prog.issues_bind (hwalk ids) fun rest _ => Prog.issues_pure ?_
      simp
    · intro got
      refine Prog.follows_bind ih (fun rest hrest => Prog.issues_pure ?_) fun _ => trivial
      exact List.mem_append_right _ hrest

theorem saved_after (hd : TrustTable d.ctx)
    (c : Cut (Turn.task d.ctx.fixed (.save iter fault)) id d t) (hmem : id ∈ d.ctx.trustedNodes)
    (hvisit : (Side.first, .getTrusted id) ∈ c.front) {nodes : List Node}
    {written : Option String} (h : (Side.first, .saveNodes nodes written) ∈ c.rest) :
    ∃ node ∈ nodes, node.nodeId = id := by
  let I (s : Daemon) : Prop := s.ctx.trustedNodes = d.ctx.trustedNodes
  let G (o : Op) : Prop := ∀ nodes written, o = .saveNodes nodes written →
    ∃ node ∈ nodes, node.nodeId = id
  obtain ⟨hfront, -, -⟩ := save_frame c
  obtain ⟨q, q', hsteps⟩ := c.before
  obtain ⟨found, hfound⟩ := exists_getElem? hmem
  have hkey := hd.trustedKeyed id found hfound
  have hdaemon := hd.trustedDaemons id found hfound
  have hwalk : (Task.iterTrusted iter).Follows I (.getTrusted id) G
      fun entries => (id, found) ∈ entries := by
    refine Prog.follows_bind (Q := fun _ => False) (Prog.follows_op fun _ _ hop => nomatch hop)
      (fun _ h => h.elim) fun ids => collect_follows (fun _ => nofun) ?_ ids
    intro s hs
    rw [hs]
    exact hfound
  have hfollows : (Turn.task d.ctx.fixed (.save iter fault)).Follows I (.getTrusted id) G
      fun _ => True := by
    refine Prog.follows_bind (Q := fun _ => True) ?_ (fun _ _ => Prog.issues_pure trivial)
      fun _ => trivial
    refine Prog.follows_bind hwalk (fun entries he => ?_)
      fun _ => Prog.follows_op fun _ _ hop => nomatch hop
    refine Prog.issues_op ?_ fun _ _ => trivial
    rintro nodes written ⟨⟩
    refine ⟨found, List.mem_map.mpr ⟨(id, found), List.mem_filter.mpr ⟨he, ?_⟩, rfl⟩, hkey⟩
    simp [hdaemon, hd.ne_me hmem, Context.fixed]
  have hleft : c.left.Issues (fun _ _ => True) G fun _ => True := by
    refine hsteps.follows hfollows hvisit ?_ rfl
    rintro ⟨side, o⟩ he s hs
    cases side with
    | first => exact (saves_trustedNodes (hfront o he) s).trans hs
    | second => exact (admits_trustedNodes (c.lookups o he) s).trans hs
  exact c.rest_issues (I := fun _ => True) hleft (fun _ _ _ _ => trivial)
    (fun _ _ _ _ => trivial) (fun _ _ => trivial) trivial _ h nodes written rfl

theorem save_gone_iff (hd : TrustTable d.ctx)
    (c : Cut (Turn.task d.ctx.fixed (.save iter fault)) id d t) :
    Gone id (after Op.apply d t) ↔ ¬ Turn.Overtakes (.save iter fault) id d t := by
  obtain ⟨-, hsaves, -⟩ := save_frame c
  have htrusted : id ∉ (after Op.apply d t).ctx.trustedNodes := by
    rw [c.trusted_iff fun o ho => by
      rintro rfl
      exact hsaves _ ho]
    rintro ⟨node, ho⟩
    exact hsaves _ ho
  have hstored := c.stored_iff fun o ho fault => by
    rintro rfl
    exact hsaves _ (c.mem_rest_of_back ho)
  have hvisited : [(Side.first, Op.getTrusted id), (.second, .removeTrusted id)].Sublist t ↔
      (Side.first, .getTrusted id) ∈ c.front := by
    have hpair : [(Side.first, Op.getTrusted id), (.second, .removeTrusted id)].Sublist t ↔
        [(Side.first, Op.getTrusted id)].Sublist c.front ∧ [].Sublist c.rest :=
      c.sublist_removal (l := [_])
    rw [hpair, List.singleton_sublist, and_iff_left (List.nil_sublist _)]
  have hsaved : ∀ nodes, [(Side.second, Op.removeStored id none),
      (.first, .saveNodes nodes none)].Sublist t ↔ (Side.first, .saveNodes nodes none) ∈ c.back := by
    intro nodes
    rw [← List.singleton_sublist]
    exact c.sublist_stored
  rw [Gone, hstored, and_iff_right htrusted]
  refine not_congr ⟨?_, ?_⟩
  · rintro ⟨nodes, hsave, node, hnode, hid⟩
    obtain ⟨hmem, hvisit⟩ := visited_before hd c (c.mem_rest_of_back hsave) hnode hid
    exact ⟨hmem, hvisited.mpr hvisit, nodes, (hsaved nodes).mpr hsave⟩
  · rintro ⟨hmem, hvisit, nodes, hsave⟩
    rw [hsaved] at hsave
    exact ⟨nodes, hsave, saved_after hd c hmem (hvisited.mp hvisit) (c.mem_rest_of_back hsave)⟩

end Save

theorem gone_iff {codecs : Codecs} {d : Daemon} (hd : TrustTable d.ctx) {id : EndpointId}
    {turn : Turn} (hleaves : turn.LeavesOut id) {t : Trace Op}
    (ht : Interleaves Op.apply (turn.task d.ctx.fixed) (Task.removeNode codecs id none) d t) :
    Gone id (after Op.apply d t) ↔ ¬ turn.Overtakes id d t := by
  obtain ⟨c⟩ := Cut.exists ht
  cases turn with
  | save iter fault => exact save_gone_iff hd c
  | message signed env => exact message_gone_iff ⟨hd.nodesKeyed, hd.trustedKeyed⟩ hleaves c

/-! The two one after the other. -/

section Serial
variable {codecs : Codecs} {d : Daemon} {id : EndpointId} {turn : Turn} {t : Trace Op}

def Turn.event : Turn → Event
  | .save iter fault => .save iter fault
  | .message signed env => .received (some signed) env

theorem Turn.task_run (turn : Turn) (d : Daemon) :
    ((turn.task d.ctx.fixed).run Op.apply d).2 = d.step codecs turn.event := by
  cases turn with
  | save iter fault =>
    have hsave := Task.save_computes d.ctx iter fault d.clients
    simp only [task, event, Daemon.step, Prog.run_bind, Prog.run_pure, hsave]
    cases d.ctx.save iter fault <;> rfl
  | message signed env =>
    have hreceive := Task.receive_computes d.ctx signed env d.clients
    simp only [task, event, Daemon.step, Prog.run_bind, Prog.run_pure, hreceive]

theorem Turn.not_overtakes_of_first (h : Leads .first t) : ¬ turn.Overtakes id d t := by
  cases turn with
  | save iter fault =>
    rintro ⟨-, -, nodes, hsub⟩
    exact h.not_overtaken (by decide) hsub
  | message signed env =>
    rintro ⟨node, hsub⟩
    exact h.not_overtaken (by decide) (List.sublist_of_cons_sublist hsub)

theorem Turn.not_overtakes_of_second (h : Leads .second t) : ¬ turn.Overtakes id d t := by
  cases turn with
  | save iter fault =>
    rintro ⟨-, hsub, -⟩
    exact h.not_overtaken (by decide) hsub
  | message signed env =>
    rintro ⟨node, hsub⟩
    have hpair := (List.sublist_append_left [(Side.first, Op.checkTrusted id),
      (.second, .removeTrusted id)] [(.first, .insertTrusted id node)]).trans hsub
    exact h.not_overtaken (by decide) hpair

theorem handleRemoveNode_fixed (codecs : Codecs) (d : Daemon) (text : String)
    (env : CommandReadings) : (handleRemoveNode codecs d text env).2.ctx.fixed = d.ctx.fixed := by
  unfold handleRemoveNode
  split
  · rfl
  · split
    · rfl
    · dsimp only
      split <;> rfl

/-- Whichever of the two comes first, the id is gone after both. -/
theorem removal_kept_serially (hd : Reachable codecs d) (hleaves : turn.LeavesOut id)
    {text : String} (htext : codecs.parseEndpointId text = some id) (hme : id ≠ d.ctx.me.nodeId)
    {env : CommandReadings} (hfault : env.fault = none) :
    Gone id (handleRemoveNode codecs (d.step codecs turn.event) text env).2 ∧
      Gone id ((handleRemoveNode codecs d text env).2.step codecs turn.event) := by
  have hremove : ∀ d : Daemon, id ≠ d.ctx.me.nodeId →
      (Task.removeNode codecs id none).run Op.apply d = handleRemoveNode codecs d text env := by
    intro d hd
    rw [← hfault]
    refine Task.removeNode_alone codecs ?_ hd
    rw [resolveNodeId, htext]
  constructor
  · obtain ⟨t, ht, hleads, hafter⟩ := interleaves_first_second Op.apply
      (turn.task d.ctx.fixed) (Task.removeNode codecs id none) d
    have hframe := changes_frame (step_changes codecs d turn.event)
    rw [Turn.task_run, hremove _ (by rwa [hframe.1])] at hafter
    rw [← hafter]
    exact (gone_iff hd.trustTable hleaves ht).mpr (Turn.not_overtakes_of_first hleads)
  · obtain ⟨t, ht, hleads, hafter⟩ := interleaves_second_first Op.apply
      (turn.task d.ctx.fixed) (Task.removeNode codecs id none) d
    rw [hremove d hme, ← handleRemoveNode_fixed codecs d text env, Turn.task_run] at hafter
    rw [← hafter]
    exact (gone_iff hd.trustTable hleaves ht).mpr (Turn.not_overtakes_of_second hleads)

end Serial

namespace Sample

def bobStored : Daemon := (start [record bob "bob" [2] 900]).daemon

theorem bobStored_reachable : Reachable codecs bobStored := ⟨_, [], rfl⟩

/-- The save has walked over the trusted table when bob is removed, and writes after it. -/
def lateSave : Trace Op :=
  [(.first, .trustedIds), (.first, .getTrusted bob), (.second, .getNode bob),
    (.second, .removeClient bob), (.second, .removeNode bob), (.second, .removeTrusted bob),
    (.second, .removeStored bob none), (.first, .saveNodes [record bob "bob" [2] 900] none)]

theorem lateSave_interleaves :
    Interleaves Op.apply (Turn.task bobStored.ctx.fixed (.save .byId none))
      (Task.removeNode codecs bob none) bobStored lateSave :=
  ⟨_, _, .first (.first (.second (.second (.second (.second (.second (.first .refl)))))))⟩

def bobAboutMe : SignedMessage :=
  ⟨bob, .aboutMe (record bob "bob" [2] 1001).addr "bob" ∅ alice, 1001⟩

def lateAboutMe : Trace Op :=
  [(.first, .checkTrusted bob), (.first, .touchNode bob 1001), (.second, .getNode bob),
    (.second, .removeClient bob), (.second, .removeNode bob), (.second, .removeTrusted bob),
    (.second, .removeStored bob none), (.first, .getNode bob), (.first, .getTrusted bob),
    (.first, .insertTrusted bob (record bob "bob" [2] 1001)),
    (.first, .addEndpointInfo (record bob "bob" [2] 1001)),
    (.first, .insertNode bob (record bob "bob" [2] 1001))]

theorem lateAboutMe_interleaves :
    Interleaves Op.apply (Turn.task bobStored.ctx.fixed (.message bobAboutMe (readings 1001)))
      (Task.removeNode codecs bob none) bobStored lateAboutMe :=
  ⟨_, _, .first (.first (.second (.second (.second (.second (.second (.first (.first (.first
    (.first (.first .refl)))))))))))⟩

end Sample

/-- `RemoveNode` of an id beside a turn of the event loop: the id is gone from the trusted
table and from the database unless the turn overtakes the removal. -/
theorem removal_kept_iff {codecs : Codecs} {d : Daemon} (hd : Reachable codecs d)
    {id : EndpointId} {turn : Turn} (hleaves : turn.LeavesOut id) {t : Trace Op}
    (ht : Interleaves Op.apply (turn.task d.ctx.fixed) (Task.removeNode codecs id none) d t) :
    Gone id (after Op.apply d t) ↔ ¬ turn.Overtakes id d t :=
  gone_iff hd.trustTable hleaves ht

theorem removal_kept_iff_late_about_me :
    ¬ Gone Sample.bob (after Op.apply Sample.bobStored Sample.lateAboutMe) := by
  have hleaves : Turn.LeavesOut Sample.bob (.message Sample.bobAboutMe (Sample.readings 1001)) :=
    ⟨by decide, by simp [Sample.bobAboutMe, Message.nodes]⟩
  rw [removal_kept_iff Sample.bobStored_reachable hleaves Sample.lateAboutMe_interleaves, not_not]
  exact ⟨Sample.record Sample.bob "bob" [2] 1001, by decide⟩

/-- Bob is stored again after his removal. -/
theorem removal_overtaken_by_save :
    Reachable Sample.codecs Sample.bobStored ∧
      Interleaves Op.apply (Turn.task Sample.bobStored.ctx.fixed (.save .byId none))
        (Task.removeNode Sample.codecs Sample.bob none) Sample.bobStored Sample.lateSave ∧
      Sample.bob ∈ (after Op.apply Sample.bobStored Sample.lateSave).ctx.storage.nodes :=
  ⟨Sample.bobStored_reachable, Sample.lateSave_interleaves, by decide⟩

end P2pDdns
