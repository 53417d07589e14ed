import SearchClient.Cluster.Send
import SearchClient.Proofs.Program.Runs
import Mathlib.Tactic.SplitIfs

/-!
# Asking the cluster for its nodes

An `Inquiry` is what came of asking one node. `Sniffed` tells all that a sniff can do: it asks nodes
in turn until one names nodes that can be used, which then make up the pool, or it has asked all of
them in vain and changes nothing. Each inquiry leaves one entry in the trail.

A request may ask at three places. `Startup`, `Stale` and `Fault` tell all that can happen there,
and `sniffOnStartup_runs`, `sniffIfStale_runs` and `sniffOnFault_runs` that nothing else can.
-/

set_option autoImplicit false
set_option relaxedAutoImplicit false

namespace SearchClient

/-- Nothing is known yet about the health of a node that an answer to a sniff names. -/
theorem Sniff.health_of_readNodes [Url.Domain.Spelling] {body : Text.Bytes} {asked : Url}
    {skipManagerOnly : Bool} {found : List Node}
    (h : readNodes body asked skipManagerOnly = .ok found) :
    ∀ node ∈ found, node.health = {} := by
  intro node hnode
  unfold readNodes at h
  split at h
  · cases h
  · simp only at h
    split at h
    · cases h
    · rw [Except.ok.injEq] at h
      rw [← h] at hnode
      obtain ⟨⟨id, d⟩, -, hmade⟩ := List.mem_filterMap.mp hnode
      unfold node? at hmade
      simp only [Option.bind_eq_bind, Option.bind_eq_some_iff] at hmade
      obtain ⟨http, -, address, -, url, -, hmade⟩ := hmade
      split at hmade
      · cases hmade
        rfl
      · cases hmade

namespace Send

open Program

/-! ### The latest of a kind -/

section Latest

variable {ι κ : Type}

/-- The latest thing that items bring with them, or an earlier one if they bring none. -/
def latest (bring : ι → Option κ) (items : List ι) (earlier : Option κ) : Option κ :=
  (items.filterMap bring).getLast?.or earlier

@[simp] theorem latest_nil (bring : ι → Option κ) (earlier : Option κ) :
    latest bring [] earlier = earlier := rfl

@[simp] theorem latest_cons (bring : ι → Option κ) (item : ι) (items : List ι)
    (earlier : Option κ) :
    latest bring (item :: items) earlier = latest bring items ((bring item).or earlier) := by
  unfold latest
  cases hitem : bring item with
  | none => simp [hitem]
  | some value => cases hitems : (items.filterMap bring).getLast? <;>
      simp [hitem, hitems, List.getLast?_cons]

end Latest

/-! ### Three occasions -/

/-- Whether a request that is the first asks the cluster before it sets out. -/
def asksAtStartup (c : Course) (sh : Shared) : Bool :=
  sh.pool.kind.takesNewNodes && c.settings.sniffOnStartup && !c.request.overrides.disableSniff

/-- Whether a request asks the cluster when the last sniff is too long ago. -/
def asksWhenStale (c : Course) (sh : Shared) : Bool :=
  sh.pool.kind.takesNewNodes && !c.request.overrides.disableSniff

/-- Whether a request asks the cluster after a node failed. -/
def asksAfterFault (c : Course) (p : Progress) (sh : Shared) : Bool :=
  !(p.sniffed || !c.settings.sniffOnFault || !sh.pool.kind.takesNewNodes ||
    c.request.overrides.disableSniff)

/-- Only a request that has not asked after a fault does so. -/
theorem sniffed_of_asksAfterFault {c : Course} {p : Progress} {sh : Shared}
    (h : asksAfterFault c p sh = true) : p.sniffed = false := by
  rw [asksAfterFault, Bool.not_eq_true'] at h
  simp only [Bool.or_eq_false_iff] at h
  exact h.1.1.1

theorem runs_keepSniffTime_bind {β : Type} {f : Unit → Program β} {b : β} {sh sh' : Shared}
    {deeds : List Deed} :
    (keepSniffTime >>= f).Runs sh deeds b sh' ↔ ∃ moment rest, deeds = .read moment :: rest ∧
      (f ()).Runs { sh with lastSniff := moment } rest b sh' :=
  runs_now_bind (f := fun moment ↦
    Program.change (fun shared ↦ { shared with lastSniff := moment }) >>= f) |>.trans
      (exists_congr fun _ ↦ exists_congr fun _ ↦ and_congr_right fun _ ↦ runs_change_bind)

/-! ### One node -/

variable [Url.Domain.Spelling]

/-- What came of asking a node. -/
inductive Finding where
  | unsendable (what : Unsendable)
  | broken (message : Message) (fault : LinkFault)
  | declined (message : Message) (reply : Reply)
  | flawed (message : Message) (reply : Reply) (flaw : Sniff.Flaw)
  | told (message : Message) (reply : Reply) (found : List Node)

/-- A node that was asked for the nodes of its cluster. -/
structure Inquiry where
  node : Url
  finding : Finding

namespace Inquiry

/-- What an inquiry does. -/
def deeds (i : Inquiry) : List Deed :=
  match i.finding with
  | .unsendable _ => []
  | .broken message fault => [.exchange message (.error fault)]
  | .declined message reply | .flawed message reply _ | .told message reply _ =>
    [.exchange message (.ok reply)]

/-- What is written down about it. -/
def entry (i : Inquiry) : TrailEntry :=
  match i.finding with
  | .unsendable what =>
    { event := .sniffFailure, node := some i.node
      detail := some (Failure.config (.unsendable what)).message }
  | .broken _ fault => faultEntry .sniffFailure i.node fault
  | .declined _ reply => statusEntry .sniffFailure i.node reply.status
  | .flawed _ _ flaw =>
    { event := .sniffFailure, node := some i.node, detail := some flaw.message }
  | .told _ _ found =>
    { event := .sniffSuccess, node := some i.node
      detail := some (toString found.length ++ " node(s)") }

/-- The nodes that were named. -/
def found? (i : Inquiry) : Option (List Node) :=
  match i.finding with
  | .told _ _ found => some found
  | _ => none

/-- The fault of the link, if there was one. -/
def fault? (i : Inquiry) : Option LinkFault :=
  match i.finding with
  | .broken _ fault => some fault
  | _ => none

/-- The node was asked the question for nodes, and the finding fits the answer. -/
def Holds (s : Settings) (timeout : Nat) (i : Inquiry) : Prop :=
  match i.finding with
  | .unsendable what => sniffMessage s i.node timeout = .error what
  | .broken message _ => sniffMessage s i.node timeout = .ok message
  | .declined message reply =>
    sniffMessage s i.node timeout = .ok message ∧ isSuccess reply.status = false
  | .flawed message reply flaw =>
    sniffMessage s i.node timeout = .ok message ∧ isSuccess reply.status = true ∧
      Sniff.readNodes reply.body i.node s.skipManagerOnly = .error flaw
  | .told message reply found =>
    sniffMessage s i.node timeout = .ok message ∧ isSuccess reply.status = true ∧
      Sniff.readNodes reply.body i.node s.skipManagerOnly = .ok found

end Inquiry

/-! ### A sniff -/

/-- The progress after the cluster was asked on an occasion. -/
def Progress.asked (p : Progress) (inquiries : List Inquiry) : Progress :=
  { p with trail := p.trail ++ inquiries.map Inquiry.entry }

/-- What a sniff of these nodes can come to. -/
inductive Sniffed (s : Settings) (timeout : Nat) (nodes : List Url) (earlier : Option LinkFault)
    (sh : Shared) : List Inquiry → SniffEnd → Shared → Prop
  | replaced {vain : List Inquiry} {last : Inquiry} {found : List Node}
      (hvain : ∀ i ∈ vain, i.Holds s timeout ∧ i.found? = none)
      (hlast : last.Holds s timeout) (hfound : last.found? = some found)
      (hnodes : (vain ++ [last]).map Inquiry.node <+: nodes) :
      Sniffed s timeout nodes earlier sh (vain ++ [last]) .replaced
        { sh with pool := (sh.pool.reseed found).1 }
  | failed {vain : List Inquiry} (hvain : ∀ i ∈ vain, i.Holds s timeout ∧ i.found? = none)
      (hnodes : vain.map Inquiry.node = nodes) :
      Sniffed s timeout nodes earlier sh vain (.failed (latest Inquiry.fault? vain earlier)) sh

variable {s : Settings} {timeout : Nat} {sh sh' : Shared} {c : Course} {p p' : Progress}
  {deeds : List Deed} {inquiries : List Inquiry} {ending : SniffEnd} {nodes : List Url}
  {earlier : Option LinkFault}

/-- All inquiries of a sniff fit their answers. -/
theorem Sniffed.holds (h : Sniffed s timeout nodes earlier sh inquiries ending sh') :
    ∀ i ∈ inquiries, i.Holds s timeout := by
  cases h with
  | replaced hvain hlast =>
    intro i hi
    rcases List.mem_append.mp hi with hi | hi
    · exact (hvain i hi).1
    · exact List.mem_singleton.mp hi ▸ hlast
  | failed hvain => exact fun i hi ↦ (hvain i hi).1

/-- A node that named none stands in front of a sniff of the others. -/
theorem Sniffed.cons {i : Inquiry} (hi : i.Holds s timeout) (hfound : i.found? = none)
    (h : Sniffed s timeout nodes (i.fault?.or earlier) sh inquiries ending sh') :
    Sniffed s timeout (i.node :: nodes) earlier sh (i :: inquiries) ending sh' := by
  cases h with
  | replaced hvain hlast htold hnodes =>
    rw [← List.cons_append]
    exact .replaced (List.forall_mem_cons.mpr ⟨⟨hi, hfound⟩, hvain⟩) hlast htold
      (by simpa using hnodes)
  | failed hvain hnodes =>
    rw [← latest_cons]
    exact .failed (List.forall_mem_cons.mpr ⟨⟨hi, hfound⟩, hvain⟩) (by simp [hnodes])

/-- Asking nodes in turn is a sniff of them. -/
theorem sniffAmong_runs
    (h : (sniffAmong s timeout nodes earlier p).Runs sh deeds (ending, p') sh') :
    ∃ inquiries, Sniffed s timeout nodes earlier sh inquiries ending sh' ∧
      deeds = inquiries.flatMap Inquiry.deeds ∧ p' = p.asked inquiries := by
  induction nodes generalizing earlier p deeds with
  | nil =>
    rw [sniffAmong, runs_pure, Prod.mk.injEq] at h
    obtain ⟨rfl, ⟨rfl, rfl⟩, rfl⟩ := h
    exact ⟨[], .failed (by simp) rfl, rfl, by simp [Progress.asked]⟩
  | cons node nodes ih =>
    -- An inquiry in vain is followed by a sniff of the other nodes.
    have hnext {i : Inquiry} {rest : List Deed} (hnode : i.node = node)
        (hi : i.Holds s timeout) (hfound : i.found? = none)
        (hrest : (sniffAmong s timeout nodes (i.fault?.or earlier) (p.record i.entry)).Runs sh rest
          (ending, p') sh') (hdeeds : deeds = i.deeds ++ rest) :
        ∃ inquiries, Sniffed s timeout (node :: nodes) earlier sh inquiries ending sh' ∧
          deeds = inquiries.flatMap Inquiry.deeds ∧ p' = p.asked inquiries := by
      obtain ⟨inquiries, hsniff, rfl, rfl⟩ := ih hrest
      refine ⟨i :: inquiries, hnode ▸ hsniff.cons hi hfound, by simpa using hdeeds, ?_⟩
      simp [Progress.asked, Progress.record]
    rw [sniffAmong] at h
    cases hmessage : sniffMessage s node timeout with
    | error what =>
      simp only [hmessage] at h
      exact hnext (i := ⟨node, .unsendable what⟩) rfl hmessage rfl h rfl
    | ok message =>
      simp only [hmessage, runs_call_bind] at h
      obtain ⟨answer, rest, rfl, h⟩ := h
      cases answer with
      | error fault => exact hnext (i := ⟨node, .broken message fault⟩) rfl hmessage rfl h rfl
      | ok reply =>
        simp only at h
        split_ifs at h with hsuccess
        · cases hread : Sniff.readNodes reply.body node s.skipManagerOnly with
          | error flaw =>
            simp only [hread] at h
            exact hnext (i := ⟨node, .flawed message reply flaw⟩) rfl ⟨hmessage, hsuccess, hread⟩
              rfl h rfl
          | ok found =>
            simp only [hread, runs_change_bind, runs_pure, Prod.mk.injEq] at h
            obtain ⟨rfl, ⟨rfl, rfl⟩, rfl⟩ := h
            refine ⟨[⟨node, .told message reply found⟩], ?_, rfl, rfl⟩
            rw [← List.nil_append [_]]
            exact .replaced (by simp) ⟨hmessage, hsuccess, hread⟩ rfl (by simp)
        · exact hnext (i := ⟨node, .declined message reply⟩) rfl
            ⟨hmessage, by simpa using hsuccess⟩ rfl h rfl

/-- A sniff asks the nodes of the pool, those alive first. -/
theorem sniff_runs (h : (sniff s timeout p).Runs sh deeds (ending, p') sh') :
    ∃ inquiries, Sniffed s timeout (sniffOrder sh.pool) none sh inquiries ending sh' ∧
      deeds = inquiries.flatMap Inquiry.deeds ∧ p' = p.asked inquiries :=
  sniffAmong_runs (runs_look_bind.mp h)

/-! ### What can happen -/

/-- What can happen before a request sets out: nothing, a sniff that replaced the pool, or one in
vain, which is the end of the request. -/
inductive Startup (c : Course) (p : Progress) (sh : Shared) :
    List Deed → Except Failure Progress → Shared → Prop
  | passed (hwhy : asksAtStartup c sh = false ∨ sh.started = true) :
      Startup c p sh [] (.ok p) sh
  | replaced {inquiries : List Inquiry} {sh₁ : Shared} (moment : Nat)
      (hasks : asksAtStartup c sh = true) (hfirst : sh.started = false)
      (hsniff : Sniffed c.settings c.limits.pingTimeout (sniffOrder sh.pool) none
        { sh with started := true } inquiries .replaced sh₁) :
      Startup c p sh (inquiries.flatMap Inquiry.deeds ++ [.read moment])
        (.ok ((p.record { event := .sniffOnStartup }).asked inquiries))
        { sh₁ with lastSniff := moment }
  | failed {inquiries : List Inquiry} {fault : Option LinkFault} {sh₁ : Shared}
      (hasks : asksAtStartup c sh = true) (hfirst : sh.started = false)
      (hsniff : Sniffed c.settings c.limits.pingTimeout (sniffOrder sh.pool) none
        { sh with started := true } inquiries (.failed fault) sh₁) :
      Startup c p sh (inquiries.flatMap Inquiry.deeds)
        (.error (.givenUp
          { why := .couldNotSniffOnStartup, attempts := 0, lastFault := fault
            trail := ((p.record { event := .sniffOnStartup }).asked inquiries).trail }))
        sh₁

/-- What can happen when the last sniff may be too long ago: nothing, a look at the clock that finds
it young enough, or a sniff, after which the request goes on in any case. -/
inductive Stale (c : Course) (p : Progress) (sh : Shared) :
    List Deed → Progress → Shared → Prop
  | passed (hwhy : c.settings.sniffLifespan = none ∨ asksWhenStale c sh = false) :
      Stale c p sh [] p sh
  | young {lifespan : Nat} (moment : Nat) (hlifespan : c.settings.sniffLifespan = some lifespan)
      (hyoung : moment - sh.lastSniff < lifespan) : Stale c p sh [.read moment] p sh
  | replaced {lifespan : Nat} {inquiries : List Inquiry} {sh₁ : Shared} (moment ended : Nat)
      (hasks : asksWhenStale c sh = true)
      (hlifespan : c.settings.sniffLifespan = some lifespan)
      (hold : lifespan ≤ moment - sh.lastSniff)
      (hsniff : Sniffed c.settings c.limits.pingTimeout (sniffOrder sh.pool) none sh inquiries
        .replaced sh₁) :
      Stale c p sh (.read moment :: inquiries.flatMap Inquiry.deeds ++ [.read ended])
        ((p.record { event := .sniffOnStaleCluster }).asked inquiries)
        { sh₁ with lastSniff := ended }
  | failed {lifespan : Nat} {inquiries : List Inquiry} {fault : Option LinkFault} {sh₁ : Shared}
      (moment : Nat) (hasks : asksWhenStale c sh = true)
      (hlifespan : c.settings.sniffLifespan = some lifespan)
      (hold : lifespan ≤ moment - sh.lastSniff)
      (hsniff : Sniffed c.settings c.limits.pingTimeout (sniffOrder sh.pool) none sh inquiries
        (.failed fault) sh₁) :
      Stale c p sh (.read moment :: inquiries.flatMap Inquiry.deeds)
        ((p.record { event := .sniffOnStaleCluster }).asked inquiries) sh₁

/-- What can happen after a node failed: nothing, or a sniff, which is the only one of its request.
The walk begins anew where the sniff replaced the pool. -/
inductive Fault (c : Course) (p : Progress) (sh : Shared) :
    List Deed → Bool → Progress → Shared → Prop
  | passed (hwhy : asksAfterFault c p sh = false) : Fault c p sh [] false p sh
  | replaced {inquiries : List Inquiry} {sh₁ : Shared} (moment : Nat)
      (hasks : asksAfterFault c p sh = true)
      (hsniff : Sniffed c.settings c.limits.pingTimeout (sniffOrder sh.pool) none sh inquiries
        .replaced sh₁) :
      Fault c p sh (inquiries.flatMap Inquiry.deeds ++ [.read moment]) true
        (({ p with sniffed := true }.record { event := .sniffOnFail }).asked inquiries)
        { sh₁ with lastSniff := moment }
  | failed {inquiries : List Inquiry} {fault : Option LinkFault} {sh₁ : Shared}
      (hasks : asksAfterFault c p sh = true)
      (hsniff : Sniffed c.settings c.limits.pingTimeout (sniffOrder sh.pool) none sh inquiries
        (.failed fault) sh₁) :
      Fault c p sh (inquiries.flatMap Inquiry.deeds) false
        (({ p with sniffed := true }.record { event := .sniffOnFail }).asked inquiries) sh₁

/-- A walk begins anew only after the one sniff of a request. -/
theorem Fault.sniffed_of_learnt (h : Fault c p sh deeds true p' sh') :
    p.sniffed = false ∧ p'.sniffed = true := by
  cases h with
  | replaced moment hasks hsniff => exact ⟨sniffed_of_asksAfterFault hasks, rfl⟩

/-- A request that has asked after a fault is known to have. -/
theorem Fault.sniffed_mono {learnt : Bool} (h : Fault c p sh deeds learnt p' sh')
    (hp' : p'.sniffed = false) : p.sniffed = false := by
  cases h with
  | passed => exact hp'
  | replaced | failed => cases hp'

/-- Where no walk begins anew, the pool is the same as before. -/
theorem Fault.same_of_not_learnt (h : Fault c p sh deeds false p' sh') : sh' = sh := by
  cases h with
  | passed => rfl
  | failed _ hsniff =>
    cases hsniff
    rfl

/-- A request whose faults teach it nothing about the nodes of a pool of this kind. -/
def Course.LearnsNothing (c : Course) (kind : PoolKind) : Prop :=
  ∀ {p p' : Progress} {sh sh' : Shared} {deeds : List Deed} {learnt : Bool},
    sh.pool.kind = kind → Fault c p sh deeds learnt p' sh' → learnt = false ∧ sh' = sh

/-! ### What asking leaves of the pool -/

/-- Nothing is known yet about the health of the nodes that were named. -/
theorem Inquiry.Holds.health_of_found {i : Inquiry} {found : List Node} (h : i.Holds s timeout)
    (hfound : i.found? = some found) : ∀ node ∈ found, node.health = {} := by
  obtain ⟨node, finding⟩ := i
  cases finding with
  | unsendable | broken | declined | flawed => cases hfound
  | told message reply told =>
    rw [Inquiry.found?, Option.some.injEq] at hfound
    exact hfound ▸ Sniff.health_of_readNodes h.2.2

/-- What holds of a pool still holds when nodes take the place of all of whose health nothing is
known. -/
def LastsThroughNews (P : Pool → Prop) : Prop :=
  ∀ pool nodes, (∀ node ∈ nodes, node.health = {}) → P pool → P (pool.reseed nodes).1

section Lasts

variable {P : Pool → Prop} (hlasts : LastsThroughNews P)

include hlasts

theorem Sniffed.lasts (h : Sniffed s timeout nodes earlier sh inquiries ending sh')
    (hP : P sh.pool) : P sh'.pool := by
  cases h with
  | replaced _ hlast hfound => exact hlasts _ _ (hlast.health_of_found hfound) hP
  | failed => exact hP

theorem Startup.lasts {begun : Except Failure Progress} (h : Startup c p sh deeds begun sh')
    (hP : P sh.pool) : P sh'.pool := by
  cases h with
  | passed => exact hP
  | replaced _ _ _ hsniff =>
    have hpool := hsniff.lasts hlasts hP
    exact hpool
  | failed _ _ hsniff => exact hsniff.lasts hlasts hP

theorem Stale.lasts (h : Stale c p sh deeds p' sh') (hP : P sh.pool) : P sh'.pool := by
  cases h with
  | passed | young => exact hP
  | replaced _ _ _ _ _ hsniff =>
    have hpool := hsniff.lasts hlasts hP
    exact hpool
  | failed _ _ _ _ hsniff => exact hsniff.lasts hlasts hP

theorem Fault.lasts {learnt : Bool} (h : Fault c p sh deeds learnt p' sh') (hP : P sh.pool) :
    P sh'.pool := by
  cases h with
  | passed => exact hP
  | replaced _ _ hsniff =>
    have hpool := hsniff.lasts hlasts hP
    exact hpool
  | failed _ hsniff => exact hsniff.lasts hlasts hP

end Lasts

/-! ### What asking adds -/

/-- What asking the cluster on an occasion adds to deeds and trail: no message and no entry where it
is not asked, and otherwise an entry about the occasion and one for each inquiry. -/
inductive Consulted (c : Course) (occasion : Event) : List Deed → Trail → Prop
  | silent {deeds : List Deed} (hdeeds : exchanges deeds = []) : Consulted c occasion deeds []
  | asked {deeds : List Deed} {inquiries : List Inquiry}
      (hdeeds : exchanges deeds = exchanges (inquiries.flatMap Inquiry.deeds))
      (hholds : ∀ i ∈ inquiries, i.Holds c.settings c.limits.pingTimeout) :
      Consulted c occasion deeds ({ event := occasion } :: inquiries.map Inquiry.entry)

theorem Startup.consulted {begun : Except Failure Progress} (h : Startup c p sh deeds begun sh') :
    ∃ added, Consulted c .sniffOnStartup deeds added ∧
      (begun = .ok { p with trail := p.trail ++ added } ∨
        ∃ fault, begun = .error (.givenUp
          { why := .couldNotSniffOnStartup, attempts := 0, lastFault := fault
            trail := p.trail ++ added })) := by
  cases h with
  | passed => exact ⟨[], .silent rfl, .inl (by simp)⟩
  | replaced moment _ _ hsniff =>
    refine ⟨_, .asked ?_ hsniff.holds, .inl ?_⟩
    · simp
    · simp [Progress.asked, Progress.record]
  | @failed inquiries fault _ _ _ hsniff =>
    refine ⟨_, .asked rfl hsniff.holds, .inr ⟨fault, ?_⟩⟩
    simp [Progress.asked, Progress.record]

theorem Stale.consulted (h : Stale c p sh deeds p' sh') :
    ∃ added, Consulted c .sniffOnStaleCluster deeds added ∧
      p' = { p with trail := p.trail ++ added } := by
  cases h with
  | passed => exact ⟨[], .silent rfl, by simp⟩
  | young => exact ⟨[], .silent rfl, by simp⟩
  | replaced _ _ _ _ _ hsniff =>
    refine ⟨_, .asked ?_ hsniff.holds, ?_⟩
    · simp
    · simp [Progress.asked, Progress.record]
  | failed _ _ _ _ hsniff =>
    refine ⟨_, .asked rfl hsniff.holds, ?_⟩
    simp [Progress.asked, Progress.record]

/-- A request that asks after a fault remembers so, and does not ask again. -/
theorem Fault.consulted {learnt : Bool} (h : Fault c p sh deeds learnt p' sh') :
    ∃ added, Consulted c .sniffOnFail deeds added ∧
      p' = { p with sniffed := p.sniffed || !added.isEmpty, trail := p.trail ++ added } ∧
      (p.sniffed = true → added = []) := by
  cases h with
  | passed => exact ⟨[], .silent rfl, by simp, fun _ ↦ rfl⟩
  | replaced moment hasks hsniff =>
    refine ⟨_, .asked ?_ hsniff.holds, ?_, ?_⟩
    · simp
    · simp [Progress.asked, Progress.record]
    · simp [sniffed_of_asksAfterFault hasks]
  | failed hasks hsniff =>
    refine ⟨_, .asked rfl hsniff.holds, ?_, ?_⟩
    · simp [Progress.asked, Progress.record]
    · simp [sniffed_of_asksAfterFault hasks]

/-! ### Runs ask as told -/

theorem sniffOnStartup_runs {begun : Except Failure Progress}
    (h : (sniffOnStartup c p).Runs sh deeds begun sh') : Startup c p sh deeds begun sh' := by
  rw [sniffOnStartup, runs_look_bind] at h
  split_ifs at h with hdue
  · rw [runs_acquire_bind, runs_look_bind] at h
    split_ifs at h with hstarted
    · rw [runs_release_bind, runs_pure] at h
      obtain ⟨rfl, rfl, rfl⟩ := h
      exact .passed (.inr hstarted)
    · rw [Bool.not_eq_true] at hstarted
      rw [runs_change_bind, runs_bind] at h
      obtain ⟨before, ⟨ending, p'⟩, sh₁, after, rfl, hsniff, h⟩ := h
      obtain ⟨inquiries, hsniffed, rfl, rfl⟩ := sniff_runs hsniff
      cases ending with
      | replaced =>
        simp only [runs_keepSniffTime_bind, runs_release_bind, runs_pure] at h
        obtain ⟨moment, rest, rfl, rfl, rfl, rfl⟩ := h
        exact .replaced moment hdue hstarted hsniffed
      | failed fault =>
        simp only [runs_release_bind, runs_pure] at h
        obtain ⟨rfl, rfl, rfl⟩ := h
        rw [List.append_nil]
        exact .failed hdue hstarted hsniffed
  · rw [runs_pure] at h
    obtain ⟨rfl, rfl, rfl⟩ := h
    exact .passed (.inl (by simpa [asksAtStartup] using hdue))

theorem sniffIfStale_runs (h : (sniffIfStale c p).Runs sh deeds p' sh') :
    Stale c p sh deeds p' sh' := by
  unfold sniffIfStale at h
  cases hlifespan : c.settings.sniffLifespan with
  | none =>
    simp only [hlifespan, runs_pure] at h
    obtain ⟨rfl, rfl, rfl⟩ := h
    exact .passed (.inl hlifespan)
  | some lifespan =>
    simp only [hlifespan, runs_look_bind] at h
    split_ifs at h with hdue
    · rw [runs_acquire_bind, runs_look_bind, runs_now_bind] at h
      obtain ⟨moment, rest, rfl, h⟩ := h
      split_ifs at h with hyoung
      · rw [runs_release_bind, runs_pure] at h
        obtain ⟨rfl, rfl, rfl⟩ := h
        exact .young moment hlifespan hyoung
      · rw [Nat.not_lt] at hyoung
        rw [runs_bind] at h
        obtain ⟨before, ⟨ending, p₁⟩, sh₁, after, rfl, hsniff, h⟩ := h
        obtain ⟨inquiries, hsniffed, rfl, rfl⟩ := sniff_runs hsniff
        cases ending with
        | replaced =>
          simp only [runs_keepSniffTime_bind, runs_release_bind, runs_pure] at h
          obtain ⟨ended, rest, rfl, rfl, rfl, rfl⟩ := h
          exact .replaced moment ended hdue hlifespan hyoung hsniffed
        | failed fault =>
          simp only [runs_release_bind, runs_pure] at h
          obtain ⟨rfl, rfl, rfl⟩ := h
          rw [List.append_nil]
          exact .failed moment hdue hlifespan hyoung hsniffed
    · rw [runs_pure] at h
      obtain ⟨rfl, rfl, rfl⟩ := h
      exact .passed (.inr (by simpa [asksWhenStale] using hdue))

theorem sniffOnFault_runs {learnt : Bool}
    (h : (sniffOnFault c p).Runs sh deeds (learnt, p') sh') :
    Fault c p sh deeds learnt p' sh' := by
  rw [sniffOnFault, runs_look_bind] at h
  split_ifs at h with hpassed
  · rw [runs_pure, Prod.mk.injEq] at h
    obtain ⟨rfl, ⟨rfl, rfl⟩, rfl⟩ := h
    exact .passed (by rw [asksAfterFault, hpassed, Bool.not_true])
  · have hasks : asksAfterFault c p sh = true := by simpa [asksAfterFault] using hpassed
    rw [runs_bind] at h
    obtain ⟨before, ⟨ending, p₁⟩, sh₁, after, rfl, hsniff, h⟩ := h
    obtain ⟨inquiries, hsniffed, rfl, rfl⟩ := sniff_runs hsniff
    cases ending with
    | replaced =>
      simp only [runs_now_bind, runs_acquire_bind, runs_change_bind, runs_release_bind, runs_pure,
        Prod.mk.injEq] at h
      obtain ⟨moment, rest, rfl, rfl, ⟨rfl, rfl⟩, rfl⟩ := h
      exact .replaced moment hasks hsniffed
    | failed fault =>
      simp only [runs_pure, Prod.mk.injEq] at h
      obtain ⟨rfl, ⟨rfl, rfl⟩, rfl⟩ := h
      rw [List.append_nil]
      exact .failed hasks hsniffed

end Send

end SearchClient
