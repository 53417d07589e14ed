import SearchClient.Proofs.Cluster.Bookkeeping
import SearchClient.Proofs.Cluster.Trust

/-!
# Nodes are pinged before they are trusted

A client lives through acts: it sends requests, one after another, and may be given new nodes from
outside in between. `Told` keeps a log of each act. The pool of a client that is made of distinct
nodes is candid to begin with, and `Walked.guarded` shows that a request leaves it so, whatever the
clock and the answers, and sends itself to a node only after a ping or if the node is trusted. From
there the induction is on the life: what was learnt in earlier acts is carried along as the stops of
their logs.
-/

set_option autoImplicit false
set_option relaxedAutoImplicit false

namespace SearchClient

open Send

/-! ### New pools -/

theorem Health.not_confident_default : ¬ Health.Confident {} :=
  not_confident_of_resurrected rfl

theorem Pool.kind_reseed (pool : Pool) (nodes : List Node) :
    (pool.reseed nodes).1.kind = pool.kind := by
  unfold reseed
  split <;> rfl

/-- A new pool of distinct nodes is candid: all its nodes ask for a ping. -/
theorem Pool.candid_of_make {kind : PoolKind} {urls : List Url} {pool : Pool}
    (h : make kind urls = .ok pool) (hdistinct : urls.Nodup) : pool.Candid [] := by
  refine ⟨sound_of_make h, ?_, ?_⟩
  all_goals
    unfold make at h
    split_ifs at h
    cases h
  · intro i _ j _ m n hm hn hurl
    simp only [node?, List.getElem?_map, Option.map_eq_some_iff] at hm hn
    obtain ⟨url, hurl₁, rfl⟩ := hm
    obtain ⟨other, hurl₂, rfl⟩ := hn
    rw [← show url = other from hurl] at hurl₂
    exact (List.getElem?_inj (List.getElem?_eq_some_iff.mp hurl₁).1 hdistinct).mp
      (hurl₁.trans hurl₂.symm)
  · intro i _ node hnode hconfident
    simp only [node?, List.getElem?_map, Option.map_eq_some_iff] at hnode
    obtain ⟨url, -, rfl⟩ := hnode
    exact absurd hconfident Health.not_confident_default

theorem Pool.kind_of_make {kind : PoolKind} {urls : List Url} {pool : Pool}
    (h : make kind urls = .ok pool) : pool.kind = kind := by
  unfold make at h
  split_ifs at h
  cases h
  rfl

namespace Send

variable {s : Settings} {c : Course} {sh sh' sh₁ sh₂ : Shared} {w w' : Walk} {p p' : Progress}
  {log : Log} {deeds : List Deed} {result : Except Failure Response} {stop : Stop}
  {past : List Stop} {learnt : Bool}

/-! ### What is watched -/

/-- What is true of the first item of a list, and of each later one with what stands in between, is
true of all its items with what stands in front of them. -/
theorem forall_splits_cons {α : Type} {P : List α → α → Prop} {a : α} {items : List α}
    (hfirst : P [] a)
    (hrest : ∀ before item after, items = before ++ item :: after → P (a :: before) item) :
    ∀ before item after, a :: items = before ++ item :: after → P before item := by
  intro before item after h
  cases before with
  | nil =>
    rw [List.nil_append, List.cons.injEq] at h
    exact h.1 ▸ hfirst
  | cons first before =>
    rw [List.cons_append, List.cons.injEq] at h
    obtain ⟨rfl, h⟩ := h
    exact hrest before item after h

/-- Each stop of a request is guarded by what came before it. -/
def Guarded (s : Settings) (past stops : List Stop) : Prop :=
  ∀ earlier stop later, stops = earlier ++ stop :: later → stop.Guarded s (past ++ earlier)

theorem guarded_nil : Guarded s past [] := by
  intro earlier stop later h
  simp at h

theorem Guarded.cons {stops : List Stop} (hstop : stop.Guarded s past)
    (hstops : Guarded s (past ++ [stop]) stops) : Guarded s past (stop :: stops) := by
  refine forall_splits_cons ?_ fun earlier other later h ↦ ?_
  · rwa [List.append_nil]
  · simpa using hstops earlier other later h

/-- A message that asks for the nodes of the cluster. -/
def Asks (s : Settings) (message : Message) : Prop :=
  ∃ node timeout, sniffMessage s node timeout = .ok message

/-- Whatever a request sends but questions to the cluster is sent at a stop, where it is the ping or
the request, one right after the other, and all stops are guarded. -/
structure Watched (s : Settings) (past : List Stop) (log : Log) : Prop where
  sent : ∀ exchange ∈ exchanges log.deeds, Asks s exchange.1 ∨
    ∃ stop ∈ log.stops, exchange ∈ exchanges stop.deeds
  together : ∀ stop ∈ log.stops, stop.deeds <:+: log.deeds
  guarded : Guarded s past log.stops

theorem watched_default : Watched s past {} := ⟨by simp, by simp, guarded_nil⟩

/-- In every act what is sent is watched over, given what came before. -/
def AllWatched (s : Settings) (past : List Stop) (logs : List Log) : Prop :=
  ∀ before log after, logs = before ++ log :: after →
    Watched s (past ++ before.flatMap Log.stops) log

theorem AllWatched.cons {logs : List Log} (hlog : Watched s past log)
    (hlogs : AllWatched s (past ++ log.stops) logs) : AllWatched s past (log :: logs) := by
  refine forall_splits_cons ?_ fun before other after h ↦ ?_
  · rwa [List.flatMap_nil, List.append_nil]
  · simpa using hlogs before other after h

/-! ### Vigilant pools -/

/-- A pool of a kind that pings, whose health tells the truth. -/
structure Vigilant (pool : Pool) (past : List Stop) : Prop where
  candid : pool.Candid past
  notSingle : pool.kind ≠ .single

/-- A stride to a node offers it, and goes on within the ring. -/
theorem vigilant_of_stride {found : Option (Nat × Url)}
    (h : (stride w p).Runs sh deeds (found, w', p') sh') (hvigilant : Vigilant sh.pool past)
    (hwithin : w.Within sh.pool) :
    Vigilant sh'.pool past ∧ w'.Within sh'.pool ∧
      ∀ number url, found = some (number, url) → sh'.pool.Offers number url := by
  obtain ⟨looked, onward, honward, -, hfound, rfl, -, rfl⟩ := stride_runs h
  refine ⟨⟨honward.candid hvigilant.candid, honward.kind_eq.trans_ne hvigilant.notSingle⟩,
    honward.within hwithin, fun number url hsome ↦ ?_⟩
  obtain ⟨taken, htaken, hlisted⟩ := Option.bind_eq_some_iff.mp (hfound.symm.trans hsome)
  obtain ⟨node, hnode, heq⟩ := Option.map_eq_some_iff.mp hlisted
  rw [Prod.mk.injEq] at heq
  obtain ⟨rfl, rfl⟩ := heq
  exact honward.offers hwithin htaken hnode

/-- A stop at a node to which a walk has come. -/
theorem vigilant_of_stop (hpings : c.Pings)
    (h : (stride w p).Runs sh deeds (some (stop.number, stop.node), w', p') sh')
    (hstop : stop.Holds c sh'.pool) (hvigilant : Vigilant sh.pool past)
    (hwithin : w.Within sh.pool) :
    stop.Guarded c.settings past ∧ Vigilant (stop.after c.settings sh').pool (past ++ [stop]) ∧
      w'.Within (stop.after c.settings sh').pool := by
  obtain ⟨⟨hcandid, hkind⟩, hwithin', hoffers⟩ := vigilant_of_stride h hvigilant hwithin
  have hoffered := hoffers stop.number stop.node rfl
  refine ⟨Stop.guarded hstop hpings hkind hoffered hcandid,
    ⟨Stop.candid_after hstop hpings hkind hoffered hcandid, hkind⟩, ?_⟩
  exact ⟨hwithin'.fresh, hwithin'.nodup, hwithin'.listed, hwithin'.passesDead⟩

section Spelled

variable [Url.Domain.Spelling]

/-! ### Sniffs -/

/-- No answer to the question for the nodes of the cluster names two nodes with one locator. -/
def DistinctAnswers (s : Settings) (deeds : List Deed) : Prop :=
  ∀ message reply node timeout found, .exchange message (.ok reply) ∈ deeds →
    sniffMessage s node timeout = .ok message → isSuccess reply.status = true →
    Sniff.readNodes reply.body node s.skipManagerOnly = .ok found → (found.map Node.url).Nodup

theorem DistinctAnswers.mono {deeds' : List Deed} (h : DistinctAnswers s deeds)
    (hsubset : deeds' ⊆ deeds) : DistinctAnswers s deeds' :=
  fun message reply node timeout found hmem ↦ h message reply node timeout found (hsubset hmem)

/-- A sniff leaves a candid pool candid, since what is new to it is pinged first. -/
theorem Sniffed.candid {timeout : Nat} {nodes : List Url} {earlier : Option LinkFault}
    {inquiries : List Inquiry} {ending : SniffEnd}
    (h : Sniffed s timeout nodes earlier sh inquiries ending sh')
    (hdistinct : DistinctAnswers s (inquiries.flatMap Inquiry.deeds))
    (hcandid : sh.pool.Candid past) : sh'.pool.Candid past := by
  cases h with
  | failed => exact hcandid
  | @replaced vain last found _ hlast hfound =>
    obtain ⟨node, finding⟩ := last
    cases finding with
    | unsendable | broken | declined | flawed => cases hfound
    | told message reply told =>
      rw [Inquiry.found?, Option.some.injEq] at hfound
      subst hfound
      obtain ⟨hmessage, hsuccess, hread⟩ := hlast
      refine hcandid.reseed ?_ fun node hnode ↦ ?_
      · refine hdistinct message reply node timeout told ?_ hmessage hsuccess hread
        simp [Inquiry.deeds]
      · rw [Sniff.health_of_readNodes hread node hnode]
        exact Health.not_confident_default

theorem Sniffed.kind_eq {timeout : Nat} {nodes : List Url} {earlier : Option LinkFault}
    {inquiries : List Inquiry} {ending : SniffEnd}
    (h : Sniffed s timeout nodes earlier sh inquiries ending sh') :
    sh'.pool.kind = sh.pool.kind := by
  cases h with
  | replaced => exact Pool.kind_reseed ..
  | failed => rfl

theorem Sniffed.vigilant {timeout : Nat} {nodes : List Url} {earlier : Option LinkFault}
    {inquiries : List Inquiry} {ending : SniffEnd}
    (h : Sniffed s timeout nodes earlier sh inquiries ending sh')
    (hdistinct : DistinctAnswers s (inquiries.flatMap Inquiry.deeds))
    (hvigilant : Vigilant sh.pool past) : Vigilant sh'.pool past :=
  ⟨h.candid hdistinct hvigilant.candid, h.kind_eq.trans_ne hvigilant.notSingle⟩

theorem Startup.vigilant {begun : Except Failure Progress} (h : Startup c p sh deeds begun sh')
    (hdistinct : DistinctAnswers c.settings deeds) (hvigilant : Vigilant sh.pool past) :
    Vigilant sh'.pool past := by
  cases h with
  | passed => exact hvigilant
  | replaced _ _ _ hsniff =>
    exact hsniff.vigilant (hdistinct.mono (List.subset_append_left ..)) hvigilant
  | failed _ _ hsniff => exact hsniff.vigilant hdistinct hvigilant

theorem Stale.vigilant (h : Stale c p sh deeds p' sh')
    (hdistinct : DistinctAnswers c.settings deeds)
    (hvigilant : Vigilant sh.pool past) : Vigilant sh'.pool past := by
  cases h with
  | passed | young => exact hvigilant
  | replaced _ _ _ _ _ hsniff =>
    refine hsniff.vigilant (hdistinct.mono ?_) hvigilant
    exact List.Subset.trans (List.subset_append_left ..) (List.subset_cons_self ..)
  | failed _ _ _ _ hsniff =>
    exact hsniff.vigilant (hdistinct.mono (List.subset_cons_self ..)) hvigilant

theorem Fault.vigilant (h : Fault c p sh deeds learnt p' sh')
    (hdistinct : DistinctAnswers c.settings deeds) (hvigilant : Vigilant sh.pool past) :
    Vigilant sh'.pool past := by
  cases h with
  | passed => exact hvigilant
  | replaced _ _ hsniff =>
    exact hsniff.vigilant (hdistinct.mono (List.subset_append_left ..)) hvigilant
  | failed _ hsniff => exact hsniff.vigilant hdistinct hvigilant

/-! ### Walks -/

/-- A walk over a vigilant pool is guarded at every stop, and leaves the pool vigilant. -/
theorem Walked.guarded (h : Walked c w p sh log p' result sh') (hpings : c.Pings)
    (hdistinct : DistinctAnswers c.settings log.deeds) (hvigilant : Vigilant sh.pool past)
    (hwithin : w.Within sh.pool) :
    Guarded c.settings past log.stops ∧ Vigilant sh'.pool (past ++ log.stops) := by
  induction h generalizing past with
  | spent hstride | late _ hstride | exhausted _ hstride =>
    refine ⟨guarded_nil, ?_⟩
    rw [List.append_nil]
    exact (vigilant_of_stride hstride hvigilant hwithin).1
  | ended moment stop hstride _ _ hstop =>
    obtain ⟨hguarded, hafter, -⟩ := vigilant_of_stop hpings hstride hstop hvigilant hwithin
    exact ⟨guarded_nil.cons hguarded, hafter⟩
  | onward moment stop hstride _ _ hstop _ hfault _ ih =>
    obtain ⟨hguarded, hafter, hwithin'⟩ :=
      vigilant_of_stop hpings hstride hstop hvigilant hwithin
    obtain rfl := hfault.same_of_not_learnt
    obtain ⟨hrest, hend⟩ := ih (hdistinct.mono (suffix_later ..).subset) hafter hwithin'
    exact ⟨.cons hguarded hrest, by simpa using hend⟩
  | @anew _ _ _ _ _ _ _ _ _ _ before asked log _ moment stop hstride _ _ hstop _ hfault _ ih =>
    obtain ⟨hguarded, hafter, -⟩ := vigilant_of_stop hpings hstride hstop hvigilant hwithin
    have hasked : asked ⊆ before ++ .read moment :: (stop.deeds ++ asked ++ log.deeds) := by
      intro deed hdeed
      simp [hdeed]
    obtain ⟨hcandid, hkind⟩ := hfault.vigilant (hdistinct.mono hasked) hafter
    obtain ⟨hrest, hend⟩ := ih (hdistinct.mono (suffix_later ..).subset)
      ⟨hcandid.walk, (Pool.kind_walk _).trans_ne hkind⟩ (hcandid.sound.within_walk hkind)
    exact ⟨.cons hguarded hrest, by simpa using hend⟩

theorem Consulted.asks {occasion : Event} {added : Trail} (h : Consulted c occasion deeds added) :
    ∀ exchange ∈ exchanges deeds, Asks c.settings exchange.1 := by
  intro exchange hexchange
  cases h with
  | silent hdeeds =>
    rw [hdeeds] at hexchange
    cases hexchange
  | @asked inquiries hdeeds hholds =>
    rw [hdeeds] at hexchange
    obtain ⟨deed, hdeed, hsame⟩ := List.mem_filterMap.mp hexchange
    obtain ⟨⟨node, finding⟩, hi, hdeed⟩ := List.mem_flatMap.mp hdeed
    have hholds := hholds _ hi
    cases finding with
    | unsendable => cases hdeed
    | broken =>
      obtain rfl := List.mem_singleton.mp hdeed
      cases hsame
      exact ⟨node, _, hholds⟩
    | declined | flawed | told =>
      obtain rfl := List.mem_singleton.mp hdeed
      cases hsame
      exact ⟨node, _, hholds.1⟩

/-- What a request sends is sent at one of its stops or asks for the nodes of the cluster. -/
theorem Walked.sent (h : Walked c w p sh log p' result sh') :
    ∀ exchange ∈ exchanges log.deeds, Asks c.settings exchange.1 ∨
      ∃ stop ∈ log.stops, exchange ∈ exchanges stop.deeds := by
  have hstrides {w w' : Walk} {p p' : Progress} {sh sh' : Shared} {deeds : List Deed}
      {found : Option (Nat × Url)} (h : (stride w p).Runs sh deeds (found, w', p') sh') :
      exchanges deeds = [] := by
    obtain ⟨_, hnothing, -⟩ := stride_writes h
    exact hnothing
  induction h with
  | spent hstride | late _ hstride | exhausted _ hstride => simp [hstrides hstride]
  | ended _ stop hstride =>
    intro exchange hexchange
    simp only [exchanges_append, exchanges_read, hstrides hstride, List.nil_append] at hexchange
    exact .inr ⟨stop, List.mem_singleton_self stop, hexchange⟩
  | onward _ stop hstride _ _ _ _ hfault _ ih | anew _ stop hstride _ _ _ _ hfault _ ih =>
    intro exchange hexchange
    simp only [exchanges_append, exchanges_read, hstrides hstride, List.nil_append,
      List.mem_append] at hexchange
    obtain (hstop | hasked) | hlater := hexchange
    · exact .inr ⟨stop, List.mem_cons_self, hstop⟩
    · obtain ⟨added, hconsulted, -⟩ := hfault.consulted
      exact .inl (hconsulted.asks exchange hasked)
    · refine (ih exchange hlater).imp_right ?_
      rintro ⟨other, hother, hmem⟩
      exact ⟨other, List.mem_cons_of_mem _ hother, hmem⟩

theorem Journey.watched (h : Journey c sh log p result sh') (hpings : c.Pings)
    (hdistinct : DistinctAnswers c.settings log.deeds) (hvigilant : Vigilant sh.pool past) :
    Watched c.settings past log ∧ Vigilant sh'.pool (past ++ log.stops) := by
  cases h with
  | stranded hstart =>
    obtain ⟨added, hconsulted, -⟩ := hstart.consulted
    refine ⟨⟨fun exchange hexchange ↦ .inl (hconsulted.asks exchange hexchange), by simp,
      guarded_nil⟩, ?_⟩
    rw [List.append_nil]
    exact hstart.vigilant hdistinct hvigilant
  | @walked first second _ _ _ _ _ _ log _ hstart hstale hwalk =>
    have hbegun := hstart.vigilant (hdistinct.mono (by simp [List.append_assoc])) hvigilant
    obtain ⟨hcandid, hkind⟩ := hstale.vigilant (hdistinct.mono (by simp)) hbegun
    obtain ⟨hguarded, hafter⟩ := hwalk.guarded hpings
      (hdistinct.mono (List.subset_append_right ..))
      ⟨hcandid.walk, (Pool.kind_walk _).trans_ne hkind⟩ (hcandid.sound.within_walk hkind)
    refine ⟨⟨fun exchange hexchange ↦ ?_, fun stop hstop ↦ ?_, hguarded⟩, hafter⟩
    · obtain ⟨_, hstartup, -⟩ := hstart.consulted
      obtain ⟨_, hstale, -⟩ := hstale.consulted
      simp only [exchanges_append, List.mem_append] at hexchange
      obtain (hexchange | hexchange) | hexchange := hexchange
      · exact .inl (hstartup.asks exchange hexchange)
      · exact .inl (hstale.asks exchange hexchange)
      · exact hwalk.sent exchange hexchange
    · exact (hwalk.deeds_infix stop hstop).trans (List.suffix_append ..).isInfix

/-! ### Lives of clients -/

/-- What happens to a client: a request is sent, with these deeds and this result, or the pool is
given new nodes from outside. -/
inductive Act where
  | send (request : Request) (deeds : List Deed) (result : Except Failure Response)
  | reseed (nodes : List Node)

/-- What an act can make of what the requests share. -/
def Act.Does (s : Settings) (sh sh' : Shared) : Act → Prop
  | send request deeds result => (SearchClient.send s request).Runs sh deeds result sh'
  | reseed nodes => sh' = { sh with pool := (sh.pool.reseed nodes).1 }

/-- Requests do not turn pings off, no answer and no list of nodes names a locator twice, and nodes
from outside ask for a ping, as nodes do that nothing is known about. -/
def Act.Fair (s : Settings) : Act → Prop
  | send request deeds _ => request.overrides.disablePing = false ∧ DistinctAnswers s deeds
  | reseed nodes => (nodes.map Node.url).Nodup ∧ ∀ node ∈ nodes, ¬ node.health.Confident

/-- Acts that happen one after another. -/
inductive Lives (s : Settings) : Shared → List Act → Shared → Prop
  | idle (sh : Shared) : Lives s sh [] sh
  | act {act : Act} {acts : List Act} {sh sh₁ sh₂ : Shared} (hact : act.Does s sh sh₁)
      (hacts : Lives s sh₁ acts sh₂) : Lives s sh (act :: acts) sh₂

/-- Logs that tell what happened in each act: of a request that is not bound to one node its
journey, and nothing of other acts, which try no node of the pool. -/
inductive Told (s : Settings) : Shared → List Act → List Log → Shared → Prop
  | idle (sh : Shared) : Told s sh [] [] sh
  | walked {r : Request} {began : Nat} {log : Log} {p : Progress}
      {result : Except Failure Response} {acts : List Act} {logs : List Log} {sh sh₁ sh₂ : Shared}
      (hopen : r.overrides.onlyNode = none)
      (hjourney : Journey (courseOf s r sh.pool began) sh log p result sh₁)
      (hrest : Told s sh₁ acts logs sh₂) :
      Told s sh (.send r (.read began :: log.deeds) result :: acts) (log :: logs) sh₂
  | bound {r : Request} {node : Url} {deeds : List Deed} {result : Except Failure Response}
      {acts : List Act} {logs : List Log} {sh sh₂ : Shared}
      (honly : r.overrides.onlyNode = some node) (hrest : Told s sh acts logs sh₂) :
      Told s sh (.send r deeds result :: acts) ({} :: logs) sh₂
  | reseeded {nodes : List Node} {acts : List Act} {logs : List Log} {sh sh₂ : Shared}
      (hrest : Told s { sh with pool := (sh.pool.reseed nodes).1 } acts logs sh₂) :
      Told s sh (.reseed nodes :: acts) ({} :: logs) sh₂

theorem Lives.exists_told {acts : List Act} (h : Lives s sh acts sh') :
    ∃ logs, Told s sh acts logs sh' := by
  induction h with
  | idle sh => exact ⟨[], .idle sh⟩
  | @act act acts sh sh₁ sh₂ hact _ ih =>
    obtain ⟨logs, hlogs⟩ := ih
    cases act with
    | reseed nodes =>
      obtain rfl := hact
      exact ⟨_, .reseeded hlogs⟩
    | send r deeds result =>
      cases honly : r.overrides.onlyNode with
      | none =>
        obtain ⟨began, log, p, rfl, hjourney⟩ := send_runs honly hact
        exact ⟨_, .walked honly hjourney hlogs⟩
      | some node =>
        obtain ⟨_, _, -, -, rfl⟩ := send_runs_only honly hact
        exact ⟨_, .bound honly hlogs⟩

/-- All that is told of a client whose pool is vigilant is watched over. -/
theorem Told.allWatched {acts : List Act} {logs : List Log} (h : Told s sh acts logs sh')
    (hpings : s.disablePings = false) (hfair : ∀ act ∈ acts, act.Fair s)
    (hvigilant : Vigilant sh.pool past) : AllWatched s past logs := by
  induction h generalizing past with
  | idle =>
    intro before log after h
    simp at h
  | walked _ hjourney _ ih =>
    obtain ⟨⟨hping, hdistinct⟩, hfair⟩ := List.forall_mem_cons.mp hfair
    obtain ⟨hwatched, hafter⟩ := hjourney.watched ⟨hpings, hping⟩
      (hdistinct.mono (List.subset_cons_self ..)) hvigilant
    exact .cons hwatched (ih hfair hafter)
  | bound _ _ ih =>
    refine .cons watched_default (ih (List.forall_mem_cons.mp hfair).2 ?_)
    rwa [List.append_nil]
  | reseeded _ ih =>
    obtain ⟨⟨hdistinct, hnew⟩, hfair⟩ := List.forall_mem_cons.mp hfair
    refine .cons watched_default (ih hfair ?_)
    rw [List.append_nil]
    exact ⟨hvigilant.candid.reseed hdistinct hnew,
      (Pool.kind_reseed ..).trans_ne hvigilant.notSingle⟩

/-- A client of distinct nodes that pings never sends a request to a node it has no reason to trust.
Whatever the clock and the answers, and whatever new nodes come in between: when a request reaches a
node of the pool, either the node was pinged right before and answered well, or the last thing that
was learnt about its locator, under whatever number, is a usable answer. -/
theorem untrusted_nodes_are_pinged {kind : PoolKind} {urls : List Url} {acts : List Act}
    (hmake : Pool.make kind urls = .ok sh.pool) (hkind : kind ≠ .single) (hdistinct : urls.Nodup)
    (hpings : s.disablePings = false) (hfair : ∀ act ∈ acts, act.Fair s)
    (hlives : Lives s sh acts sh') :
    (∃ logs, Told s sh acts logs sh') ∧ ∀ logs, Told s sh acts logs sh' → AllWatched s [] logs := by
  have hvigilant : Vigilant sh.pool [] :=
    ⟨Pool.candid_of_make hmake hdistinct, (Pool.kind_of_make hmake).trans_ne hkind⟩
  exact ⟨hlives.exists_told, fun logs htold ↦ htold.allWatched hpings hfair hvigilant⟩

end Spelled

/-! ### A node that is listed again -/

/-- Settings of a client that pings, and asks the cluster for nothing. -/
def watchful : Settings := { sniffOnStartup := false, sniffOnFault := false }

/-- Two nodes that answer whatever they are asked. -/
def welcoming : World (List (Except LinkFault Reply)) :=
  .start (List.replicate 3 (.ok { status := 200, body := [] }))
    { kind := .sniffing, register := [{ url := nodeAt "a" }, { url := nodeAt "b" }]
      ring := [0, 1] }

/-- The first of two nodes is listed again, with another one. -/
def listedAgain : List Node := [{ url := nodeAt "a" }, { url := nodeAt "c" }]

/-- What is left after a request to the first of two nodes, which is then listed again. -/
def welcomedOnce : World (List (Except LinkFault Reply)) :=
  ((send watchful plainRequest).run .ofAnswers welcoming).2.changePool fun pool ↦
    (pool.reseed listedAgain).1

/-- A deed that brings no body. -/
def bringsNothing : Deed → Bool
  | .exchange _ (.ok reply) => reply.body.isEmpty
  | _ => true

/-- Answers without a body name no nodes. -/
theorem distinctAnswers_of_empty (h : deeds.all bringsNothing = true) :
    DistinctAnswers s deeds := by
  intro message reply node timeout found hmem _ _ hread
  have hbody : reply.body = [] := List.isEmpty_iff.mp (List.all_eq_true.mp h _ hmem)
  rw [hbody] at hread
  cases hread

/-- A request, new nodes, and another request. -/
def actsWithNewNodes : List Act :=
  [.send plainRequest ((send watchful plainRequest).deeds .ofAnswers welcoming)
      ((send watchful plainRequest).run .ofAnswers welcoming).1,
    .reseed listedAgain,
    .send plainRequest ((send watchful plainRequest).deeds .ofAnswers welcomedOnce)
      ((send watchful plainRequest).run .ofAnswers welcomedOnce).1]

theorem lives_actsWithNewNodes : Lives watchful welcoming.shared actsWithNewNodes
    ((send watchful plainRequest).run .ofAnswers welcomedOnce).2.shared :=
  .act (Program.runs_run .ofAnswers (send watchful plainRequest) welcoming) <|
    .act rfl <| .act (Program.runs_run .ofAnswers (send watchful plainRequest) welcomedOnce) <|
      .idle _

theorem fair_actsWithNewNodes : ∀ act ∈ actsWithNewNodes, act.Fair watchful := by
  refine List.forall_mem_cons.mpr ⟨⟨rfl, distinctAnswers_of_empty rfl⟩, ?_⟩
  refine List.forall_mem_cons.mpr ⟨⟨by decide, ?_⟩, ?_⟩
  · simp [listedAgain, Health.not_confident_default]
  · exact List.forall_mem_singleton.mpr ⟨rfl, distinctAnswers_of_empty rfl⟩

/-- The first node is pinged before it gets a request. It gets the next one without a ping, since it
is still trusted after it was listed again. -/
theorem untrusted_nodes_are_pinged_of_two :
    (exchanges ((send watchful plainRequest).deeds .ofAnswers welcoming)).length = 2 ∧
    (exchanges ((send watchful plainRequest).deeds .ofAnswers welcomedOnce)).length = 1 ∧
    (∃ logs, Told watchful welcoming.shared actsWithNewNodes logs
      ((send watchful plainRequest).run .ofAnswers welcomedOnce).2.shared) ∧
    ∀ logs, Told watchful welcoming.shared actsWithNewNodes logs
      ((send watchful plainRequest).run .ofAnswers welcomedOnce).2.shared →
        AllWatched watchful [] logs :=
  ⟨rfl, rfl, untrusted_nodes_are_pinged
    (show Pool.make .sniffing [nodeAt "a", nodeAt "b"] = .ok welcoming.shared.pool from rfl)
    (by decide) (by decide) rfl
    fair_actsWithNewNodes lives_actsWithNewNodes⟩

end Send

end SearchClient
