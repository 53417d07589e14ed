import SearchClient.Proofs.Cluster.Journey
import Mathlib.Data.List.Nodup

/-!
# Nodes that are trusted

A node gets a request without a ping only if it is trusted: the last thing that was learnt by trying
it was a usable answer. What is learnt at a stop is its `Stop.lesson?`, and `learnt` is the last
lesson about a locator in all stops so far, whichever entry of the pool had that locator then.

Trust is kept in two flags of a node's health, so the flags have to tell the truth about the stops
made so far (`Pool.Candid`). Whatever replaces the pool keeps a candid pool candid as long as no two
of the new nodes share a locator: a node that was listed before inherits flags and lessons alike,
and a node that is new to the pool is pinged first. A stop keeps it candid too, since a node that
failed is dead and is pinged when it is given another chance. `Walked.guarded` carries this through
a request and `untrusted_nodes_are_pinged` through a life of requests, one after another.
-/

set_option autoImplicit false
set_option relaxedAutoImplicit false

namespace SearchClient

namespace Send

/-! ### Lessons -/

/-- What is learnt of a node: a ping or the request met with a fault, a ping was answered well and
nothing more could be sent, or the request was answered with a status. -/
inductive Lesson where
  | failed (fault : LinkFault)
  | greeted (status : Nat)
  | answered (status : Nat)
  deriving DecidableEq, Repr

/-- The last thing that is learnt at a stop, unless nothing could be sent. -/
def Stop.lesson? (stop : Stop) : Option Lesson :=
  match stop.meeting with
  | .unpingable what _ => some (.failed (unsendableFault what))
  | .pingFailed _ _ fault _ => some (.failed fault)
  | .attempted greeting (.unsendable _) => greeting.map fun (_, reply) ↦ .greeted reply.status
  | .attempted _ (.broken _ fault _) => some (.failed fault)
  | .attempted _ (.refused _ reply _) | .attempted _ (.answered _ reply) =>
    some (.answered reply.status)

/-- What a stop teaches about the node at a locator. -/
def Stop.lessonAbout? (url : Url) (stop : Stop) : Option Lesson :=
  if stop.node = url then stop.lesson? else none

/-- The last thing that was learnt about the node at a locator. -/
def learnt (url : Url) (past : List Stop) : Option Lesson :=
  latest (Stop.lessonAbout? url) past none

/-- The last thing that was learnt about the node at a locator is a usable answer to a request. -/
def Trusts (past : List Stop) (url : Url) : Prop :=
  ∃ status, learnt url past = some (.answered status) ∧ isRetryable status = false

/-- A node was pinged and answered well right before it got a message. -/
def PingedBefore (s : Settings) (node : Url) (exchange : Exchange) (deeds : List Deed) : Prop :=
  ∃ timeout ping reply, pingMessage s node timeout = .ok ping ∧ isSuccess reply.status = true ∧
    [.exchange ping (.ok reply), .exchange exchange.1 exchange.2] <:+: deeds

/-- The message of the request itself with its answer, if it was sent. -/
def Attempt.exchange? : Attempt → Option Exchange
  | .unsendable _ => none
  | .refused message reply _ | .answered message reply => some (message, .ok reply)
  | .broken message fault _ => some (message, .error fault)

/-- The message of the request itself with its answer, if the node got it. -/
def Stop.exchange? (stop : Stop) : Option Exchange :=
  match stop.meeting with
  | .attempted _ attempt => attempt.exchange?
  | _ => none

/-- A node got the request only if it was pinged right before or is trusted after what came before
this stop. -/
def Stop.Guarded (s : Settings) (past : List Stop) (stop : Stop) : Prop :=
  ∀ exchange, stop.exchange? = some exchange →
    PingedBefore s stop.node exchange stop.deeds ∨ Trusts past stop.node

variable {s : Settings} {c : Course} {pool : Pool} {past stops : List Stop} {stop : Stop}
  {url : Url}

theorem learnt_concat (url : Url) (past : List Stop) (stop : Stop) :
    learnt url (past ++ [stop]) = (stop.lessonAbout? url).or (learnt url past) := by
  unfold learnt latest
  cases hlesson : stop.lessonAbout? url with
  | none => simp [hlesson]
  | some lesson => simp [hlesson]

/-- A stop teaches nothing about other locators. -/
theorem learnt_concat_of_ne (h : stop.node ≠ url) :
    learnt url (past ++ [stop]) = learnt url past := by
  rw [learnt_concat, Stop.lessonAbout?, if_neg h, Option.none_or]

/-- What is learnt at a stop is the last thing learnt about its node. -/
theorem learnt_concat_self (past : List Stop) (stop : Stop) :
    learnt stop.node (past ++ [stop]) = stop.lesson?.or (learnt stop.node past) := by
  rw [learnt_concat, Stop.lessonAbout?, if_pos rfl]

theorem Trusts.concat_of_ne (h : Trusts past url) (hne : stop.node ≠ url) :
    Trusts (past ++ [stop]) url := by
  obtain ⟨status, hlearnt, husable⟩ := h
  exact ⟨status, (learnt_concat_of_ne hne).trans hlearnt, husable⟩

end Send

open Send

/-! ### Candid pools -/

/-- Health that asks for no ping: alive, and not about to be given another chance. -/
def Health.Confident (h : Health) : Prop := h.alive = true ∧ h.resurrected = false

theorem Health.not_confident_of_resurrected {h : Health} (hagain : h.resurrected = true) :
    ¬ h.Confident := by
  intro hconfident
  rw [hconfident.2] at hagain
  cases hagain

namespace Pool

variable {pool : Pool} {past past' : List Stop} {number : Nat} {change : Health → Health}

theorem mem_nodes_iff {node : Node} :
    node ∈ pool.nodes ↔ ∃ i ∈ pool.ring, pool.node? i = some node := by
  simp only [nodes, members, List.mem_map, List.mem_filterMap, Option.map_eq_some_iff,
    Prod.exists, Prod.mk.injEq]
  constructor
  · rintro ⟨i, found, ⟨j, hj, found', hfound', rfl, rfl⟩, rfl⟩
    exact ⟨j, hj, hfound'⟩
  · rintro ⟨i, hi, hnode⟩
    exact ⟨i, node, ⟨i, hi, node, hnode, rfl, rfl⟩, rfl⟩

/-- A node of a pool in which the health of one was changed. -/
theorem exists_of_node?_changeHealth {i : Nat} {node : Node}
    (h : (pool.changeHealth number change).node? i = some node) : ∃ before,
      pool.node? i = some before ∧ node.url = before.url ∧
      node.health = if i = number then change before.health else before.health := by
  by_cases hi : i = number
  · subst hi
    rw [node?_changeHealth_self] at h
    obtain ⟨before, hbefore, rfl⟩ := Option.map_eq_some_iff.mp h
    exact ⟨before, hbefore, rfl, (if_pos rfl).symm⟩
  · rw [node?_changeHealth_of_ne (Ne.symm hi)] at h
    exact ⟨node, h, rfl, (if_neg hi).symm⟩

/-! ### New nodes -/

/-- A listed node with the health that is known of its locator. -/
def inherited (pool : Pool) (node : Node) : Node :=
  match pool.healthAt? node.url with
  | some health => { node with health := health }
  | none => node

@[simp] theorem url_inherited (pool : Pool) (node : Node) :
    (pool.inherited node).url = node.url := by
  unfold inherited
  split <;> rfl

theorem reseed_of_takes {nodes : List Node} (htakes : pool.kind.takesNewNodes = true)
    (hnodes : nodes ≠ []) : pool.reseed nodes =
      ({ pool with
          register := pool.register ++ nodes.map pool.inherited
          ring := List.range' pool.register.length nodes.length
          turns := 0 }, true) := by
  have hsome : (pool.kind.takesNewNodes && !nodes.isEmpty) = true := by simpa [htakes] using hnodes
  unfold reseed
  rw [if_pos hsome]
  simp only [List.length_map]
  rfl

theorem reseed_of_not_takes {nodes : List Node}
    (h : ¬ (pool.kind.takesNewNodes = true ∧ nodes ≠ [])) : pool.reseed nodes = (pool, false) := by
  unfold reseed
  rw [if_neg (by simpa using h)]

/-- New nodes come after those that there were. -/
theorem node?_reseed {node : Node} (h : pool.node? number = some node) (nodes : List Node) :
    (pool.reseed nodes).1.node? number = some node := by
  by_cases htakes : pool.kind.takesNewNodes = true ∧ nodes ≠ []
  · rw [reseed_of_takes htakes.1 htakes.2, node?,
      List.getElem?_append_left (List.getElem?_eq_some_iff.mp h).1]
    exact h
  · rw [reseed_of_not_takes htakes]
    exact h

/-- The nodes of a new ring are the listed ones. -/
theorem exists_of_relisted {nodes : List Node} {i : Nat} {node : Node}
    (hi : i ∈ List.range' pool.register.length nodes.length)
    (hnode : (pool.register ++ nodes.map pool.inherited)[i]? = some node) :
    ∃ k, ∃ hk : k < nodes.length, i = pool.register.length + k ∧
      node = pool.inherited nodes[k] := by
  obtain ⟨k, hk, rfl⟩ := List.mem_range'.mp hi
  refine ⟨k, hk, by rw [Nat.one_mul], ?_⟩
  rw [Nat.one_mul, List.getElem?_append_right (Nat.le_add_right ..), Nat.add_sub_cancel_left,
    List.getElem?_map, List.getElem?_eq_getElem hk, Option.map_some, Option.some.injEq] at hnode
  exact hnode.symm

/-! ### Flags that tell the truth -/

/-- No two nodes of the ring share a locator, and the health of a node asks for no ping only if the
node is trusted. -/
structure Candid (pool : Pool) (past : List Stop) : Prop where
  sound : pool.Sound
  distinct : ∀ i ∈ pool.ring, ∀ j ∈ pool.ring, ∀ m n, pool.node? i = some m →
    pool.node? j = some n → m.url = n.url → i = j
  trusted : ∀ i ∈ pool.ring, ∀ node, pool.node? i = some node → node.health.Confident →
    Trusts past node.url

namespace Candid

/-- The health of a node may be changed if what it then tells is true, and what is learnt meanwhile
leaves the other nodes trusted. -/
theorem changeHealth (h : pool.Candid past)
    (hself : ∀ node, pool.node? number = some node → (change node.health).Confident →
      Trusts past' node.url)
    (hothers : ∀ i ∈ pool.ring, i ≠ number → ∀ node, pool.node? i = some node →
      Trusts past node.url → Trusts past' node.url) :
    (pool.changeHealth number change).Candid past' where
  sound := h.sound.changeHealth
  distinct := by
    intro i hi j hj m n hm hn hurl
    obtain ⟨m', hm', hmurl, -⟩ := exists_of_node?_changeHealth hm
    obtain ⟨n', hn', hnurl, -⟩ := exists_of_node?_changeHealth hn
    refine h.distinct i hi j hj m' n' hm' hn' ?_
    rw [← hmurl, ← hnurl, hurl]
  trusted := by
    intro i hi node hnode hconfident
    obtain ⟨before, hbefore, hurl, hhealth⟩ := exists_of_node?_changeHealth hnode
    rw [hurl]
    rw [hhealth] at hconfident
    by_cases hnumber : i = number
    · rw [if_pos hnumber] at hconfident
      exact hself before (hnumber ▸ hbefore) hconfident
    · rw [if_neg hnumber] at hconfident
      exact hothers i hi hnumber before hbefore (h.trusted i hi before hbefore hconfident)

/-- To give a node another chance leaves a pool candid: it is pinged. -/
theorem revive (h : pool.Candid past) : (pool.changeHealth number Health.revive).Candid past :=
  h.changeHealth (fun _ _ hconfident ↦ absurd hconfident (Health.not_confident_of_resurrected rfl))
    fun _ _ _ _ _ htrusts ↦ htrusts

theorem walk (h : pool.Candid past) : pool.walk.2.Candid past where
  sound := h.sound.walk
  distinct := by simpa using h.distinct
  trusted := by simpa using h.trusted

/-- What is known of a node that is listed again is true. -/
theorem trusts_of_inherited (h : pool.Candid past) {node : Node} (hnew : ¬ node.health.Confident)
    (hconfident : (pool.inherited node).health.Confident) : Trusts past node.url := by
  unfold inherited at hconfident
  cases hhealth : pool.healthAt? node.url with
  | none =>
    simp only [hhealth] at hconfident
    exact absurd hconfident hnew
  | some health =>
    simp only [hhealth] at hconfident
    obtain ⟨known, hknown, rfl⟩ := Option.map_eq_some_iff.mp hhealth
    have hurl : known.url = node.url := by simpa using List.find?_some hknown
    obtain ⟨i, hi, hnode⟩ := mem_nodes_iff.mp (List.mem_of_find?_eq_some hknown)
    rw [← hurl]
    exact h.trusted i hi known hnode hconfident

/-- Nodes with a locator each, of which those that are new to the pool ask for a ping, may take the
place of all: what is known of the others is handed on with their locators. -/
theorem reseed (h : pool.Candid past) {nodes : List Node} (hdistinct : (nodes.map Node.url).Nodup)
    (hnew : ∀ node ∈ nodes, ¬ node.health.Confident) : (pool.reseed nodes).1.Candid past := by
  by_cases htakes : pool.kind.takesNewNodes = true ∧ nodes ≠ []
  · rw [reseed_of_takes htakes.1 htakes.2]
    have hsound := h.sound.reseed nodes
    rw [reseed_of_takes htakes.1 htakes.2] at hsound
    refine ⟨hsound, ?_, ?_⟩
    · intro i hi j hj m n hm hn hurl
      obtain ⟨k, hk, rfl, rfl⟩ := exists_of_relisted hi hm
      obtain ⟨l, hl, rfl, rfl⟩ := exists_of_relisted hj hn
      rw [url_inherited, url_inherited] at hurl
      have hkl : k = l := by
        rw [← hdistinct.getElem_inj_iff]
        · rwa [List.getElem_map, List.getElem_map]
        · rwa [List.length_map]
        · rwa [List.length_map]
      rw [hkl]
    · intro i hi node hnode hconfident
      obtain ⟨k, hk, rfl, rfl⟩ := exists_of_relisted hi hnode
      rw [url_inherited]
      exact h.trusts_of_inherited (hnew _ (List.getElem_mem hk)) hconfident
  · rw [reseed_of_not_takes htakes]
    exact h

end Candid

end Pool

/-! ### Walks over candid pools -/

/-- A walk that has only nodes of the ring before it, each once, and passes over dead ones. -/
structure Walk.Within (w : Walk) (pool : Pool) : Prop where
  fresh : w.Fresh
  nodup : w.rest.Nodup
  listed : w.rest ⊆ pool.ring
  passesDead : w.always = false

theorem Pool.Sound.within_walk {pool : Pool} (h : pool.Sound) (hkind : pool.kind ≠ .single) :
    pool.walk.1.Within pool.walk.2 where
  fresh := pool.fresh_walk
  nodup := h.nodup_walk
  listed := by
    rw [ring_walk]
    exact pool.rest_walk_perm.subset
  passesDead := by
    unfold Pool.walk
    cases hsame : pool.kind with
    | single => exact absurd hsame hkind
    | fixed | sniffing | sticky => rfl

/-- A node of the ring that is alive or was just given another chance. -/
def Pool.Offers (pool : Pool) (number : Nat) (url : Url) : Prop :=
  number ∈ pool.ring ∧ ∃ node, pool.node? number = some node ∧ node.url = url ∧
    (node.health.alive = true ∨ node.health.resurrected = true)

namespace Walk.Onward

variable {w : Walk} {pool : Pool} {now number : Nat} {onward : Stride} {past : List Stop}

theorem ring_eq (h : w.Onward pool now onward) : onward.pool.ring = pool.ring := by
  cases h <;> rfl

theorem within (h : w.Onward pool now onward) (hwithin : w.Within pool) :
    onward.walk.Within onward.pool := by
  have hring := h.ring_eq
  cases h with
  | @taken _ rest _ _ hrest | @revived _ rest _ _ hrest =>
    have hsuffix : rest <:+ w.rest := by
      rw [hrest]
      exact (List.suffix_cons ..).trans (List.suffix_append ..)
    exact ⟨fresh_of_begun rfl, hsuffix.sublist.nodup hwithin.nodup,
      hring ▸ List.Subset.trans hsuffix.subset hwithin.listed, hwithin.passesDead⟩
  | spent | longestDead =>
    exact ⟨fresh_of_begun rfl, List.nodup_nil, List.nil_subset _, hwithin.passesDead⟩
  | nobody _ hall =>
    exact ⟨fun _ ↦ by rw [hall], List.nodup_nil, List.nil_subset _, hwithin.passesDead⟩

theorem candid (h : w.Onward pool now onward) (hcandid : pool.Candid past) :
    onward.pool.Candid past := by
  cases h with
  | taken | spent | nobody => exact hcandid
  | revived | longestDead => exact hcandid.revive

/-- A walk comes only to nodes that are alive or are given another chance. -/
theorem offers (h : w.Onward pool now onward) (hwithin : w.Within pool)
    (hnumber : onward.node = some number) {node : Node} (hnode : pool.node? number = some node) :
    onward.pool.Offers number node.url := by
  have hmem : number ∈ onward.pool.ring := by
    rw [h.ring_eq]
    exact hwithin.listed (h.leaves hwithin.fresh hwithin.nodup hnumber).1
  refine ⟨hmem, ?_⟩
  cases h with
  | taken _ _ hfound halive =>
    rw [Option.some.injEq] at hnumber
    subst hnumber
    rw [hfound, Option.some.injEq] at hnode
    subst hnode
    rw [hwithin.passesDead, Bool.false_or] at halive
    exact ⟨_, hfound, rfl, .inl halive⟩
  | revived | longestDead =>
    rw [Option.some.injEq] at hnumber
    subst hnumber
    refine ⟨{ node with health := node.health.revive }, ?_, rfl, .inr rfl⟩
    rw [Pool.node?_changeHealth_self, hnode]
    rfl
  | spent | nobody => cases hnumber

end Walk.Onward

/-! ### Stops at candid pools -/

namespace Send

variable {c : Course} {pool : Pool} {past : List Stop} {stop : Stop}

/-- Nodes are pinged, as far as settings and the request have a say. -/
def Course.Pings (c : Course) : Prop :=
  c.settings.disablePings = false ∧ c.request.overrides.disablePing = false

/-- Where pings are not turned off, a node is pinged if its health asks for it. -/
theorem isPinged_eq_resurrected (hpings : c.Pings) (hkind : pool.kind ≠ .single) {number : Nat}
    {node : Node} (hnode : pool.node? number = some node) :
    isPinged c pool number = node.health.resurrected := by
  have hsome : pool.kind.pings = true := by simpa [PoolKind.pings] using hkind
  simp [isPinged, hnode, hsome, hpings.1, hpings.2]

/-- A request that was not preceded by a ping goes to a node whose health asks for none. -/
theorem Stop.confident_of_unpinged (hstop : stop.Holds c pool) (hpings : c.Pings)
    (hkind : pool.kind ≠ .single) {node : Node} (hnode : pool.node? stop.number = some node)
    (hoffered : node.health.alive = true ∨ node.health.resurrected = true) {attempt : Attempt}
    (hmeeting : stop.meeting = .attempted none attempt) : node.health.Confident := by
  have hunpinged : isPinged c pool stop.number = false := by
    simp only [Stop.Holds, hmeeting] at hstop
    exact hstop.1
  rw [isPinged_eq_resurrected hpings hkind hnode] at hunpinged
  refine ⟨hoffered.resolve_right ?_, hunpinged⟩
  rw [hunpinged]
  exact Bool.false_ne_true

/-- A node that was pinged and answered well, but could not get the request, still asks for a
ping. -/
theorem Stop.not_confident_of_greeted (hstop : stop.Holds c pool) (hpings : c.Pings)
    (hkind : pool.kind ≠ .single) {node : Node} (hnode : pool.node? stop.number = some node)
    {greeting : Message × Reply} {attempt : Attempt}
    (hmeeting : stop.meeting = .attempted (some greeting) attempt) : ¬ node.health.Confident := by
  refine Health.not_confident_of_resurrected ?_
  rw [← isPinged_eq_resurrected hpings hkind hnode]
  simp only [Stop.Holds, hmeeting] at hstop
  exact hstop.1

theorem Attempt.exchange_mem_deeds {attempt : Attempt} {exchange : Exchange}
    (h : attempt.exchange? = some exchange) :
    ∃ rest, attempt.deeds = .exchange exchange.1 exchange.2 :: rest := by
  cases attempt with
  | unsendable => cases h
  | refused | broken | answered =>
    cases h
    exact ⟨_, rfl⟩

/-- In a candid pool a node that is offered gets the request only after a ping or if it is
trusted. -/
theorem Stop.guarded (hstop : stop.Holds c pool) (hpings : c.Pings) (hkind : pool.kind ≠ .single)
    (hoffers : pool.Offers stop.number stop.node) (hcandid : pool.Candid past) :
    stop.Guarded c.settings past := by
  intro exchange hexchange
  obtain ⟨hmem, node, hnode, hurl, hoffered⟩ := hoffers
  cases hmeeting : stop.meeting with
  | unpingable | pingFailed =>
    simp only [Stop.exchange?, hmeeting] at hexchange
    cases hexchange
  | attempted greeting attempt =>
    simp only [Stop.exchange?, hmeeting] at hexchange
    cases greeting with
    | none =>
      have hconfident := Stop.confident_of_unpinged hstop hpings hkind hnode hoffered hmeeting
      exact .inr (hurl ▸ hcandid.trusted _ hmem node hnode hconfident)
    | some greeting =>
      obtain ⟨ping, reply⟩ := greeting
      obtain ⟨rest, hrest⟩ := Attempt.exchange_mem_deeds hexchange
      simp only [Stop.Holds, hmeeting] at hstop
      refine .inl ⟨_, ping, reply, hstop.2.1, hstop.2.2.1, ?_⟩
      refine ⟨[], rest, ?_⟩
      simp [Stop.deeds, hmeeting, hrest, Stop.greetingDeeds]

/-- What a stop makes of the health of its node asks for no ping only if the node is trusted
then. -/
theorem Stop.trusts_of_confident_mark (hstop : stop.Holds c pool) (hpings : c.Pings)
    (hkind : pool.kind ≠ .single) {node : Node} (hnode : pool.node? stop.number = some node)
    (htrusted : node.health.Confident → Trusts past stop.node)
    (hconfident : (stop.mark c.settings node.health).Confident) :
    Trusts (past ++ [stop]) stop.node := by
  have hlearnt := learnt_concat_self past stop
  cases hmeeting : stop.meeting with
  | unpingable | pingFailed =>
    simp only [Stop.mark, Stop.failedAt?, hmeeting] at hconfident
    cases hconfident.1
  | attempted greeting attempt =>
    cases attempt with
    | refused | broken =>
      simp only [Stop.mark, Stop.failedAt?, hmeeting] at hconfident
      cases hconfident.1
    | answered message reply =>
      simp only [Stop.lesson?, hmeeting] at hlearnt
      have hattempt : (Attempt.answered message reply).Holds c stop.node := by
        cases stop
        cases hmeeting
        exact Stop.attempt_holds hstop
      exact ⟨reply.status, hlearnt, hattempt.2⟩
    | unsendable what =>
      -- Nothing was sent but perhaps a ping, after which the health still asks for one.
      simp only [Stop.mark, Stop.failedAt?, Stop.answer?, hmeeting] at hconfident
      cases greeting with
      | some =>
        exact absurd hconfident (Stop.not_confident_of_greeted hstop hpings hkind hnode hmeeting)
      | none =>
        simp only [Stop.lesson?, hmeeting] at hlearnt
        obtain ⟨status, hstatus, husable⟩ := htrusted hconfident
        exact ⟨status, hlearnt.trans hstatus, husable⟩

/-- A stop leaves a candid pool candid. -/
theorem Stop.candid_after (hstop : stop.Holds c pool) (hpings : c.Pings)
    (hkind : pool.kind ≠ .single) (hoffers : pool.Offers stop.number stop.node)
    (hcandid : pool.Candid past) :
    (pool.changeHealth stop.number (stop.mark c.settings)).Candid (past ++ [stop]) := by
  obtain ⟨hmem, node, hnode, hurl, -⟩ := hoffers
  refine hcandid.changeHealth ?_ ?_
  · intro other hother hconfident
    rw [hnode, Option.some.injEq] at hother
    subst hother
    rw [hurl]
    refine Stop.trusts_of_confident_mark hstop hpings hkind hnode (fun hbefore ↦ ?_) hconfident
    exact hurl ▸ hcandid.trusted _ hmem node hnode hbefore
  · intro i hi hne other hother htrusts
    refine htrusts.concat_of_ne fun hsame ↦ hne ?_
    exact hcandid.distinct i hi _ hmem other node hother hnode (hsame ▸ hurl.symm)

end Send

end SearchClient
