import SearchClient.Proofs.Cluster.PingFirst
import SearchClient.Proofs.Program.Alike

/-!
# Sniffing pools that are never sniffed

A sniffing pool is a fixed one that can take new nodes besides. Where no request asks the cluster
for its nodes, since it is told not to or since the settings name no occasion for it, nothing else
depends on which of the two a pool is: what a request is bound to, where a walk begins, what it
takes next and who is pinged are the same (`send_alike`).

So two clients that differ in nothing but this live the same life: they read the clock at the same
points and send the same messages in the same order, their requests end with the same responses and
failures and the same trails, and their nodes are left in the same health.
-/

set_option autoImplicit false
set_option relaxedAutoImplicit false

namespace SearchClient

/-! ### Twins -/

namespace Pool

variable {pool : Pool}

/-- A pool of the same nodes that takes no new ones. -/
def fixed (pool : Pool) : Pool := { pool with kind := .fixed }

/-- Pools of nodes that nothing is known about are the same but for their kind. -/
theorem make_fixed (urls : List Url) :
    make .fixed urls = (make .sniffing urls).map fixed := by
  by_cases hnone : urls = []
  · rw [make, make, if_pos hnone, if_pos hnone]
    rfl
  · simp [make, hnone, fixed, Except.map]

theorem node?_fixed (number : Nat) : pool.fixed.node? number = pool.node? number := rfl

theorem maxRetries_fixed (hkind : pool.kind = .sniffing) :
    pool.fixed.maxRetries = pool.maxRetries := by
  simp [maxRetries, fixed, size, hkind]

theorem walk_fixed (hkind : pool.kind = .sniffing) :
    pool.fixed.walk = (pool.walk.1, pool.walk.2.fixed) := by
  unfold walk
  rw [hkind]
  rfl

theorem seek_fixed (always : Bool) (now : Nat) (ring : List Nat) :
    pool.fixed.seek always now ring = pool.seek always now ring := by
  induction ring with
  | nil => rfl
  | cons first others ih => simp only [seek, node?_fixed, ih]

theorem longestDead_fixed (ring : List Nat) :
    pool.fixed.longestDead ring = pool.longestDead ring := by
  induction ring with
  | nil => rfl
  | cons first others ih =>
    simp only [longestDead, node?_fixed, ih]
    rfl

end Pool

/-- A walk takes the same nodes of a pool whether or not that takes new ones. -/
theorem Walk.next_fixed (w : Walk) (pool : Pool) (now : Nat) :
    w.next pool.fixed now =
      { w.next pool now with pool := (w.next pool now).pool.fixed } := by
  unfold Walk.next
  rw [Pool.seek_fixed, Pool.longestDead_fixed]
  split
  · split_ifs <;> rfl
  · split_ifs
    · rfl
    · split <;> rfl

theorem Walk.kind_next (w : Walk) (pool : Pool) (now : Nat) :
    (w.next pool now).pool.kind = pool.kind :=
  (w.onward_next pool now).kind_eq

/-- What requests share, with a pool that takes no new nodes. -/
def Shared.fixed (sh : Shared) : Shared := { sh with pool := sh.pool.fixed }

/-- The same is shared, but for a sniffing pool on one side and a fixed one on the other. -/
structure Twins (sh sh' : Shared) : Prop where
  sniffing : sh.pool.kind = .sniffing
  eq_fixed : sh' = sh.fixed

namespace Send

open Program

/-! ### Requests that never ask -/

/-- The settings name no occasion on which the cluster is asked for its nodes. -/
structure Unasking (s : Settings) : Prop where
  startup : s.sniffOnStartup = false
  fault : s.sniffOnFault = false
  lifespan : s.sniffLifespan = none

/-- A request never asks the cluster for its nodes. -/
def NeverAsks (s : Settings) (r : Request) : Prop := Unasking s ∨ r.overrides.disableSniff = true

variable {s : Settings} {c : Course} {p : Progress} {sh sh' sh₁ sh₁' : Shared}

theorem limits_fixed {pool : Pool} (hkind : pool.kind = .sniffing) (o : Overrides) :
    limits s pool.fixed o = limits s pool o := by
  have hsingle : pool.kind ≠ .single := by rw [hkind]; decide
  have hsingle' : pool.fixed.kind ≠ .single := nofun
  simp only [limits, if_neg hsingle, if_neg hsingle', Pool.maxRetries_fixed hkind]

theorem sniffOnStartup_alike [Url.Domain.Spelling] (hnever : NeverAsks c.settings c.request) :
    (sniffOnStartup c p).Alike Twins (sniffOnStartup c p) := by
  have hasks (sh : Shared) : (sh.pool.kind.takesNewNodes && c.settings.sniffOnStartup &&
      !c.request.overrides.disableSniff) = false := by
    rcases hnever with hsettings | hdisabled
    · simp [hsettings.startup]
    · simp [hdisabled]
  refine .look_bind fun sh sh' _ ↦ ?_
  rw [hasks, hasks]
  exact .pure _

theorem sniffIfStale_alike [Url.Domain.Spelling] (hnever : NeverAsks c.settings c.request) :
    (sniffIfStale c p).Alike Twins (sniffIfStale c p) := by
  unfold sniffIfStale
  rcases hlifespan : c.settings.sniffLifespan with _ | lifespan
  · exact .pure p
  · have hdisabled : c.request.overrides.disableSniff = true := by
      rcases hnever with hsettings | hdisabled
      · rw [hsettings.lifespan] at hlifespan
        cases hlifespan
      · exact hdisabled
    refine .look_bind fun sh sh' _ ↦ ?_
    simp only [hdisabled, Bool.not_true, Bool.and_false]
    exact .pure p

theorem sniffOnFault_alike [Url.Domain.Spelling] (hnever : NeverAsks c.settings c.request) :
    (sniffOnFault c p).Alike Twins (sniffOnFault c p) := by
  have hspares (sh : Shared) : (p.sniffed || !c.settings.sniffOnFault ||
      !sh.pool.kind.takesNewNodes || c.request.overrides.disableSniff) = true := by
    rcases hnever with hsettings | hdisabled
    · simp [hsettings.fault]
    · simp [hdisabled]
  refine .look_bind fun sh sh' _ ↦ ?_
  rw [hspares, hspares]
  exact .pure _

/-! ### The walk -/

theorem change_alike (f f' : Pool → Pool) (hf : ∀ pool, pool.kind = .sniffing →
    (f pool).kind = .sniffing ∧ f' pool.fixed = (f pool).fixed) :
    (change fun shared ↦ { shared with pool := f shared.pool }).Alike Twins
      (change fun shared ↦ { shared with pool := f' shared.pool }) := by
  refine .change fun sh sh' h ↦ ?_
  obtain ⟨hkind, rfl⟩ := h
  obtain ⟨hafter, hfixed⟩ := hf sh.pool hkind
  exact ⟨hafter, by simp [Shared.fixed, hfixed]⟩

theorem mark_alike (number : Nat) (f : Health → Health) :
    (mark number f).Alike Twins (mark number f) :=
  change_alike (·.changeHealth number f) (·.changeHealth number f) fun _ hkind ↦ ⟨hkind, rfl⟩

theorem markDead_alike (number : Nat) : (markDead s number).Alike Twins (markDead s number) :=
  .now_bind fun _ ↦ mark_alike number _

theorem ping_alike (node : Url) (timeout : Nat) :
    (ping s node timeout p).Alike Twins (ping s node timeout p) := by
  unfold ping
  split
  · exact .pure _
  · refine .call_bind fun answer ↦ ?_
    cases answer with
    | error fault => exact .pure _
    | ok reply =>
      dsimp only
      split_ifs
      · exact .pure _
      · exact .pure _

theorem attempt_alike (number : Nat) (node : Url) :
    (attempt c number node p).Alike Twins (attempt c number node p) := by
  unfold attempt
  split
  · exact .pure _
  · refine .call_bind fun answer ↦ ?_
    cases answer with
    | error fault => exact (markDead_alike number).bind fun _ ↦ .pure _
    | ok reply =>
      dsimp only
      split_ifs
      · exact (markDead_alike number).bind fun _ ↦ .pure _
      · exact (mark_alike number _).bind fun _ ↦ .pure _
      · exact (mark_alike number _).bind fun _ ↦ .pure _

theorem visit_alike (number : Nat) (node : Url) :
    (visit c number node p).Alike Twins (visit c number node p) := by
  refine .look_bind fun sh sh' h ↦ ?_
  have hpinged : isPinged c sh'.pool number = isPinged c sh.pool number := by
    obtain ⟨hkind, rfl⟩ := h
    have hpings : sh.pool.kind.pings = true := by rw [hkind]; rfl
    have hpings' : sh.fixed.pool.kind.pings = true := rfl
    simp only [isPinged, hpings, hpings']
    rfl
  rw [hpinged]
  split_ifs
  · refine (ping_alike node _).bind fun out ↦ ?_
    obtain ⟨fault, p⟩ := out
    cases fault with
    | none => exact attempt_alike number node
    | some fault => exact (markDead_alike number).bind fun _ ↦ .pure _
  · exact attempt_alike number node

theorem stride_alike (w : Walk) : (stride w p).Alike Twins (stride w p) := by
  refine .now_bind fun moment ↦ .look_bind fun sh sh' h ↦ ?_
  obtain ⟨hkind, rfl⟩ := h
  have hnext := w.next_fixed sh.pool moment
  refine .bind (change_alike (fun _ ↦ _) (fun _ ↦ _) fun _ _ ↦ ⟨?_, ?_⟩) fun _ ↦ ?_
  · exact (w.kind_next sh.pool moment).trans hkind
  · exact congrArg Stride.pool hnext
  · have hnode : (w.next sh.fixed.pool moment).node = (w.next sh.pool moment).node :=
      (congrArg Stride.node hnext :)
    have hwalk : (w.next sh.fixed.pool moment).walk = (w.next sh.pool moment).walk :=
      (congrArg Stride.walk hnext :)
    have hentries : (w.next sh.fixed.pool moment).entries = (w.next sh.pool moment).entries :=
      (congrArg Stride.entries hnext :)
    rw [hnode, hwalk, hentries]
    exact .pure _

theorem sendOnly_alike (node : Url) : (sendOnly c node).Alike Twins (sendOnly c node) := by
  unfold sendOnly
  split
  · exact .pure _
  · refine .call_bind fun answer ↦ ?_
    cases answer <;> exact .pure _

section Spelled

variable [Url.Domain.Spelling]

theorem walk_alike {another : Progress → Program (Except Failure Response)}
    (hnever : NeverAsks c.settings c.request)
    (hanother : ∀ p, (another p).Alike Twins (another p)) (turns : Nat) (w : Walk) :
    (walk c another turns w p).Alike Twins (walk c another turns w p) := by
  induction turns generalizing w p with
  | zero => exact .pure _
  | succ turns ih =>
    refine (stride_alike w).bind fun ⟨found, w, p⟩ ↦ ?_
    cases found with
    | none => exact .pure _
    | some found =>
      obtain ⟨number, node⟩ := found
      refine .now_bind fun moment ↦ ?_
      dsimp only
      split_ifs
      · exact .pure _
      · exact .pure _
      · refine (visit_alike number node).bind fun out ↦ ?_
        cases out with
        | answered result => exact .pure result
        | failed p =>
          refine (sniffOnFault_alike hnever).bind fun ⟨learnt, p⟩ ↦ ?_
          cases learnt with
          | true => exact hanother p
          | false => exact ih w

theorem walks_alike (hnever : NeverAsks c.settings c.request) (more : Nat) :
    (walks c more p).Alike Twins (walks c more p) := by
  induction more generalizing p with
  | zero => exact .pure _
  | succ more ih =>
    refine .look_bind fun sh sh' h ↦ ?_
    obtain ⟨hkind, rfl⟩ := h
    have hwalk : sh.fixed.pool.walk = (sh.pool.walk.1, sh.pool.walk.2.fixed) :=
      Pool.walk_fixed hkind
    have hafter : sh.pool.walk.2.kind = .sniffing := (Pool.kind_walk sh.pool).trans hkind
    generalize sh.pool.walk = begun at hwalk hafter ⊢
    obtain ⟨w, pool⟩ := begun
    rw [hwalk]
    refine .bind (change_alike (fun _ ↦ pool) (fun _ ↦ pool.fixed) fun _ _ ↦ ⟨hafter, rfl⟩) ?_
    exact fun _ ↦ walk_alike hnever (fun _ ↦ ih) _ w

/-- A request that never asks for nodes goes alike over a sniffing pool and over a fixed one, also
if it is bound to one node. -/
theorem send_alike {r : Request} (hnever : NeverAsks s r) :
    (send s r).Alike Twins (send s r) := by
  refine .now_bind fun began ↦ .look_bind fun sh sh' h ↦ ?_
  obtain ⟨hkind, rfl⟩ := h
  have hlimits : limits s sh.fixed.pool r.overrides = limits s sh.pool r.overrides :=
    limits_fixed hkind r.overrides
  rw [hlimits]
  rcases r.overrides.onlyNode with _ | node
  rotate_left
  · exact sendOnly_alike node
  · refine (sniffOnStartup_alike hnever).bind fun started ↦ ?_
    cases started with
    | error failure => exact .pure _
    | ok p => exact (sniffIfStale_alike hnever).bind fun p ↦ walks_alike hnever 2

/-! ### Lives of requests -/

/-- The deeds of an act. New nodes from outside take none. -/
def Act.deeds : Act → List Deed
  | send _ deeds _ => deeds
  | reseed _ => []

/-- An act is the sending of a request. -/
def Act.Sends (request : Request) (act : Act) : Prop :=
  ∃ deeds result, act = .send request deeds result

/-- A client sends its requests one after another, and what happens is what its surroundings bring
about. -/
structure Serves (s : Settings) (around : Surroundings) (past : List Deed)
    (requests : List Request) (sh : Shared) (acts : List Act) (sh' : Shared) : Prop where
  sends : List.Forall₂ Act.Sends requests acts
  around : around.BringAbout past (acts.flatMap Act.deeds)
  lives : Lives s sh acts sh'

namespace Serves

variable {around : Surroundings} {past : List Deed} {r : Request} {requests : List Request}
  {acts acts' : List Act}

theorem nil_iff : Serves s around past [] sh acts sh' ↔ acts = [] ∧ sh' = sh := by
  constructor
  · intro h
    obtain rfl := List.forall₂_nil_left_iff.mp h.sends
    cases h.lives
    exact ⟨rfl, rfl⟩
  · rintro ⟨rfl, rfl⟩
    exact ⟨.nil, trivial, .idle _⟩

/-- A client serves the first of its requests, and then the others. -/
theorem cons_iff : Serves s around past (r :: requests) sh acts sh' ↔
    ∃ deeds result rest sh₁, acts = .send r deeds result :: rest ∧
      (send s r).Runs sh deeds result sh₁ ∧ around.BringAbout past deeds ∧
      Serves s around (past ++ deeds) requests sh₁ rest sh' := by
  constructor
  · rintro ⟨hsends, haround, hlives⟩
    obtain ⟨act, rest, ⟨deeds, result, rfl⟩, hrest, rfl⟩ := List.forall₂_cons_left_iff.mp hsends
    rw [List.flatMap_cons, Surroundings.bringAbout_append] at haround
    cases hlives with
    | act hact hacts =>
      exact ⟨deeds, result, rest, _, rfl, hact, haround.1, hrest, haround.2, hacts⟩
  · rintro ⟨deeds, result, rest, sh₁, rfl, hrun, haround, hrest⟩
    refine ⟨.cons ⟨deeds, result, rfl⟩ hrest.sends, ?_, .act hrun hrest.lives⟩
    rw [List.flatMap_cons, Surroundings.bringAbout_append]
    exact ⟨haround, hrest.around⟩

/-- Whatever is around a client, it comes to an end with its requests. -/
theorem exists_serves (s : Settings) (around : Surroundings) (past : List Deed)
    (requests : List Request) (sh : Shared) :
    ∃ acts sh', Serves s around past requests sh acts sh' := by
  induction requests generalizing past sh with
  | nil => exact ⟨[], sh, nil_iff.mpr ⟨rfl, rfl⟩⟩
  | cons r requests ih =>
    obtain ⟨deeds, result, sh₁, hrun, haround⟩ := (send s r).exists_runs around past sh
    obtain ⟨rest, sh', hrest⟩ := ih (past ++ deeds) sh₁
    exact ⟨_, sh', cons_iff.mpr ⟨deeds, result, rest, sh₁, rfl, hrun, haround, hrest⟩⟩

/-- Of two clients that share twins, each does what the other does in the same surroundings, and
they share twins again. -/
theorem twins (hnever : ∀ r ∈ requests, NeverAsks s r)
    (h : Serves s around past requests sh acts sh₁)
    (h' : Serves s around past requests sh' acts' sh₁') (htwins : Twins sh sh') :
    acts' = acts ∧ Twins sh₁ sh₁' := by
  induction requests generalizing past sh sh' acts acts' with
  | nil =>
    obtain ⟨rfl, rfl⟩ := nil_iff.mp h
    obtain ⟨rfl, rfl⟩ := nil_iff.mp h'
    exact ⟨rfl, htwins⟩
  | cons r requests ih =>
    obtain ⟨hfirst, hothers⟩ := List.forall_mem_cons.mp hnever
    obtain ⟨deeds, result, rest, sh₂, rfl, hrun, haround, hrest⟩ := cons_iff.mp h
    obtain ⟨deeds', result', rest', sh₂', rfl, hrun', haround', hrest'⟩ := cons_iff.mp h'
    -- What the one does, the other can do as well, and it can do nothing else.
    obtain ⟨sh₃, hsame, hafter⟩ := (send_alike hfirst).exists_runs hrun htwins
    obtain ⟨rfl, rfl, rfl⟩ := hsame.unique hrun' haround haround'
    obtain ⟨rfl, hend⟩ := ih hothers hrest hrest' hafter
    exact ⟨rfl, hend⟩

end Serves

/-- Sniffing is nothing but a fixed pool that takes new nodes. For whatever locators the two pools
are made together or not at all. If no request asks for nodes, then clients of the two that set out
at the same moment in the same surroundings both come to an end with their requests, their acts are
the same, deeds and results, and so is all that they leave behind, but for the kind of the pool. -/
theorem sniffing_goes_as_fixed {s : Settings} {requests : List Request}
    (hnever : Unasking s ∨ ∀ r ∈ requests, r.overrides.disableSniff = true) (urls : List Url) :
    Pool.make .fixed urls = (Pool.make .sniffing urls).map Pool.fixed ∧
    ∀ pool, Pool.make .sniffing urls = .ok pool → ∀ around lastSniff,
      (∃ acts sh₁, Serves s around [] requests { pool := pool, lastSniff := lastSniff } acts sh₁) ∧
      (∃ acts sh₁,
        Serves s around [] requests { pool := pool.fixed, lastSniff := lastSniff } acts sh₁) ∧
      ∀ acts acts' sh₁ sh₁',
        Serves s around [] requests { pool := pool, lastSniff := lastSniff } acts sh₁ →
        Serves s around [] requests { pool := pool.fixed, lastSniff := lastSniff } acts' sh₁' →
        acts' = acts ∧ sh₁' = sh₁.fixed := by
  refine ⟨Pool.make_fixed urls, fun pool hmake around lastSniff ↦ ⟨?_, ?_, ?_⟩⟩
  · exact Serves.exists_serves s around [] requests _
  · exact Serves.exists_serves s around [] requests _
  · intro acts acts' sh₁ sh₁' h h'
    have hquiet : ∀ r ∈ requests, NeverAsks s r := by
      intro r hr
      exact hnever.imp_right fun hdisabled ↦ hdisabled r hr
    obtain ⟨hacts, htwins⟩ := h.twins hquiet h' ⟨Pool.kind_of_make hmake, rfl⟩
    exact ⟨hacts, htwins.eq_fixed⟩

end Spelled

/-- A clock that moves on with each deed, and nodes of which every second exchange fails. -/
def wavering : Surroundings :=
  { moment := List.length
    answer := fun past _ ↦
      if (exchanges past).length % 2 = 0 then .error .timeout
      else .ok { status := 200, body := [] } }

/-- Two requests are served over two nodes, and by the very same acts whether or not the pool could
take new nodes. -/
theorem sniffing_goes_as_fixed_of_two :
    Unasking watchful ∧
    Pool.make .sniffing [nodeAt "a", nodeAt "b"] = .ok welcoming.shared.pool ∧
    ∃ acts sh₁,
      Serves watchful wavering [] [plainRequest, plainRequest] welcoming.shared acts sh₁ ∧
      Serves watchful wavering [] [plainRequest, plainRequest] welcoming.shared.fixed acts
        sh₁.fixed := by
  have hunasking : Unasking watchful := ⟨rfl, rfl, rfl⟩
  have hmake : Pool.make .sniffing [nodeAt "a", nodeAt "b"] = .ok welcoming.shared.pool := rfl
  have hnever : Unasking watchful ∨
      ∀ r ∈ [plainRequest, plainRequest], r.overrides.disableSniff = true := .inl hunasking
  obtain ⟨-, hclients⟩ := sniffing_goes_as_fixed hnever [nodeAt "a", nodeAt "b"]
  obtain ⟨⟨acts, sh₁, h⟩, ⟨acts', sh₁', h'⟩, hsame⟩ := hclients _ hmake wavering 0
  obtain ⟨rfl, rfl⟩ := hsame acts acts' sh₁ sh₁' h h'
  exact ⟨hunasking, hmake, acts', sh₁, h, h'⟩

end Send

end SearchClient
