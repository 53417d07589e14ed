import SearchClient.Proofs.Cluster.LateMarks
import SearchClient.Proofs.Program.Keeping

/-!
# There is always a node to try

A pool is made with nodes in it, and it is only ever changed by handlings: new nodes take the place
of all if there are any, a node is marked, a walk begins, a walk goes on to its next node. None of
them takes the last node away (`Populated.handled`), and nodes that were once in the ring are never
forgotten. So a walk that begins comes to a node, in whatever health the nodes are by then and
whatever has become of the pool: to one that is alive or due, or else to the one that has been dead
longest (`Pool.Populated.exists_node_of_walk`).

A request that is sent over such a pool therefore tries a node before it can find that none is left.
`send_keeps` says so for a request among others, which may be sent or handle the pool themselves
while it waits.
-/

set_option autoImplicit false
set_option relaxedAutoImplicit false

namespace SearchClient

/-! ### Handlings of a pool -/

/-- What can be done to a pool. -/
inductive Handling where
  /-- New nodes take the place of all. -/
  | reseed (nodes : List Node)
  /-- The health of a node is changed. -/
  | mark (number : Nat) (change : Health → Health)
  /-- A walk begins. -/
  | view
  /-- A walk goes on to its next node. -/
  | stride (w : Walk) (now : Nat)

/-- What a handling makes of a pool. -/
def Handling.apply (pool : Pool) : Handling → Pool
  | reseed nodes => (pool.reseed nodes).1
  | mark number change => pool.changeHealth number change
  | view => pool.walk.2
  | stride w now => (w.next pool now).pool

namespace Pool

variable {pool : Pool} {w : Walk} {now : Nat}

/-- The pool after some handlings. -/
def handled (pool : Pool) (handlings : List Handling) : Pool := handlings.foldl Handling.apply pool

theorem Populated.next (h : pool.Populated) (w : Walk) (now : Nat) :
    (w.next pool now).pool.Populated := by
  have honward := w.onward_next pool now
  generalize w.next pool now = onward at honward ⊢
  cases honward with
  | taken | spent | nobody => exact h
  | revived | longestDead => exact h.changeHealth

theorem Populated.apply (h : pool.Populated) (handling : Handling) :
    (handling.apply pool).Populated := by
  cases handling with
  | reseed nodes => exact h.reseed nodes
  | mark => exact h.changeHealth
  | view => exact h.walk
  | stride w now => exact h.next w now

/-- No handling takes all nodes out of a pool. -/
theorem Populated.handled (h : pool.Populated) (handlings : List Handling) :
    (pool.handled handlings).Populated := by
  induction handlings generalizing pool with
  | nil => exact h
  | cons handling handlings ih => exact ih (h.apply handling)

theorem length_register_le_apply (pool : Pool) (handling : Handling) :
    pool.register.length ≤ (handling.apply pool).register.length := by
  cases handling with
  | reseed nodes => exact (Grows.reseed nodes).length_le
  | mark => exact Grows.changeHealth.length_le
  | view => exact Grows.walk.length_le
  | stride w now => exact Nat.le_of_eq (w.onward_next pool now).length_register_eq.symm

/-- No node is ever forgotten. -/
theorem length_register_le_handled (pool : Pool) (handlings : List Handling) :
    pool.register.length ≤ (pool.handled handlings).register.length := by
  induction handlings generalizing pool with
  | nil => exact Nat.le_refl _
  | cons handling handlings ih =>
    exact Nat.le_trans (pool.length_register_le_apply handling) (ih (handling.apply pool))

theorem Populated.nodes_ne_nil (h : pool.Populated) : pool.nodes ≠ [] := by
  obtain ⟨number, hnumber⟩ := List.exists_mem_of_ne_nil _ h.nonempty
  obtain ⟨node, hnode⟩ := h.toSound.exists_node hnumber
  have hmem : node ∈ pool.nodes := mem_nodes_iff.mpr ⟨number, hnumber, hnode⟩
  exact List.ne_nil_of_mem hmem

end Pool

/-! ### Walks that begin -/

/-- A walk that has not begun and has nodes that are known comes to one of them. -/
theorem Walk.Onward.exists_node_of_known {w : Walk} {pool : Pool} {now : Nat} {onward : Stride}
    (h : w.Onward pool now onward) (hbegun : w.begun = false) (hfresh : w.Fresh)
    (hall : w.all ≠ []) (hknown : ∀ number ∈ w.all, number < pool.register.length) :
    ∃ number node, onward.node = some number ∧ number ∈ w.all ∧ pool.node? number = some node := by
  have hmem {skipped rest : List Nat} {number : Nat} (hrest : w.rest = skipped ++ number :: rest) :
      number ∈ w.all := by
    rw [← (hfresh hbegun).mem_iff, hrest]
    exact List.mem_append_right _ List.mem_cons_self
  cases h with
  | taken hrest _ hnode | revived hrest _ hnode => exact ⟨_, _, rfl, hmem hrest, hnode⟩
  | spent _ hspent =>
    rw [hbegun] at hspent
    cases hspent
  | nobody _ hnone => exact absurd hnone hall
  | longestDead _ _ hlongest =>
    have hlisted := Pool.longestDead_mem hlongest
    exact ⟨_, _, rfl, hlisted, List.getElem?_eq_getElem (hknown _ hlisted)⟩

/-- A walk over a pool with nodes comes to one of them, whatever has been done to the pool when it
is asked for its first. -/
theorem Pool.Populated.exists_node_of_walk {pool : Pool} (h : pool.Populated)
    (handlings : List Handling) (now : Nat) :
    ∃ number node, (pool.walk.1.next (pool.walk.2.handled handlings) now).node = some number ∧
      number ∈ pool.ring ∧ (pool.walk.2.handled handlings).node? number = some node := by
  have honward := pool.walk.1.onward_next (pool.walk.2.handled handlings) now
  rw [← Pool.all_walk pool]
  refine honward.exists_node_of_known (Pool.begun_walk pool) (Pool.fresh_walk pool) ?_ ?_
  · rw [Pool.all_walk]
    exact h.nonempty
  · intro number hnumber
    rw [Pool.all_walk] at hnumber
    calc number < pool.register.length := h.listed number hnumber
      _ = pool.walk.2.register.length := by rw [Pool.register_walk]
      _ ≤ _ := Pool.length_register_le_handled ..

namespace Send

open Program

/-! ### Requests that find nobody -/

/-- A request came to no node at all. -/
def Nodeless (result : Except Failure Response) : Prop :=
  ∃ g, result = .error (.givenUp g) ∧ g.why = .noNodesAttempted

/-- There are nodes in the pool that the requests share. -/
def Peopled (sh : Shared) : Prop := sh.pool.Populated

variable {s : Settings} {c : Course} {p : Progress} {sh : Shared} {w : Walk}

theorem not_nodeless_ok (response : Response) : ¬ Nodeless (.ok response) := by
  rintro ⟨g, hresult, -⟩
  cases hresult

theorem not_nodeless_config (fault : ConfigFault) : ¬ Nodeless (.error (.config fault)) := by
  rintro ⟨g, hresult, -⟩
  cases hresult

theorem not_nodeless_surrender {why : Surrender} {event : Event}
    (hwhy : why ≠ .noNodesAttempted) : ¬ Nodeless (p.surrender why event) := by
  rintro ⟨g, hresult, hnobody⟩
  cases hresult
  exact hwhy hnobody

theorem not_nodeless_runOut (htried : 1 ≤ p.tried) : ¬ Nodeless (runOut c p) := by
  unfold runOut
  rw [if_neg (Nat.one_le_iff_ne_zero.mp htried)]
  split_ifs
  · exact not_nodeless_surrender (by decide)
  · exact not_nodeless_surrender (by decide)

theorem not_nodeless_respond (node : Url) (reply : Reply) (trail : Trail) :
    ¬ Nodeless (respond c node reply trail) := by
  unfold respond
  split
  · exact not_nodeless_config _
  · exact not_nodeless_ok _

/-! ### Sniffs -/

theorem keepSniffTime_keeps : keepSniffTime.Keeps Peopled (fun _ _ ↦ True) sh :=
  .now_bind fun _ ↦ .change (fun h ↦ h) trivial

section Sniffs

variable [Url.Domain.Spelling] {tried : Nat}

theorem sniffAmong_keeps {timeout : Nat} {nodes : List Url} {fault : Option LinkFault}
    (hp : p.tried = tried) :
    (sniffAmong s timeout nodes fault p).Keeps Peopled (fun out _ ↦ out.2.tried = tried) sh := by
  induction nodes generalizing fault p sh with
  | nil => exact .pure hp
  | cons node nodes ih =>
    unfold sniffAmong
    dsimp only
    split
    · exact ih hp
    · refine .call_bind fun answer sh₁ _ ↦ ?_
      split
      · exact ih hp
      · split_ifs
        · split
          · exact .change_bind (fun h ↦ Pool.Populated.reseed h _) (.pure hp)
          · exact ih hp
        · exact ih hp

theorem sniff_keeps {timeout : Nat} (hp : p.tried = tried) :
    (sniff s timeout p).Keeps Peopled (fun out _ ↦ out.2.tried = tried) sh :=
  .look_bind (sniffAmong_keeps hp)

theorem sniffOnStartup_keeps : (sniffOnStartup c p).Keeps Peopled
    (fun out _ ↦ ∀ failure, out = .error failure → ¬ Nodeless (.error failure)) sh := by
  have hok (p : Progress) (failure : Failure) (h : Except.ok p = Except.error failure) :
      ¬ Nodeless (.error failure) := by
    cases h
  refine .look_bind ?_
  split_ifs
  · refine .acquire_bind fun sh₁ h₁ ↦ .look_bind ?_
    split_ifs
    · exact .release_bind (.pure (hok _))
    · refine .change_bind (fun h ↦ h) (.bind (sniff_keeps rfl) h₁ fun out sh₂ h₂ _ ↦ ?_)
      split
      · exact .bind keepSniffTime_keeps h₂ fun _ _ _ _ ↦ .release_bind (.pure (hok _))
      · refine .release_bind (.pure ?_)
        rintro _ hfailure ⟨g, hg, hwhy⟩
        cases hfailure
        cases hg
        cases hwhy
  · exact .pure (hok _)

theorem sniffIfStale_keeps :
    (sniffIfStale c p).Keeps Peopled (fun _ _ ↦ True) sh := by
  unfold sniffIfStale
  split
  · exact .pure trivial
  · refine .look_bind ?_
    split_ifs
    · refine .acquire_bind fun sh₁ h₁ ↦ .look_bind (.now_bind fun moment ↦ ?_)
      split_ifs
      · exact .release_bind (.pure trivial)
      · refine .bind (sniff_keeps rfl) h₁ fun out sh₂ h₂ _ ↦ ?_
        split
        · exact .bind keepSniffTime_keeps h₂ fun _ _ _ _ ↦ .release_bind (.pure trivial)
        · exact .release_bind (.pure trivial)
    · exact .pure trivial

theorem sniffOnFault_keeps (h : Peopled sh) (hp : p.tried = tried) :
    (sniffOnFault c p).Keeps Peopled (fun out _ ↦ out.2.tried = tried) sh := by
  refine .look_bind ?_
  split_ifs
  · exact .pure hp
  · refine .bind (sniff_keeps hp) h fun out sh₁ h₁ hout ↦ ?_
    split
    · exact .now_bind fun _ ↦ .acquire_bind fun _ _ ↦
        .change_bind (fun h ↦ h) (.release_bind (.pure hout))
    · exact .pure hout

end Sniffs

/-! ### Visits -/

/-- How a visit to a node ends: with a result, or as a node that was tried and failed. -/
def Tried (tried : Nat) : Visit → Prop
  | .answered result => ¬ Nodeless result
  | .failed p => p.tried = tried

section Visits

variable {tried number : Nat} {node : Url}

theorem mark_keeps {f : Health → Health} : (mark number f).Keeps Peopled (fun _ _ ↦ True) sh :=
  .change (fun h ↦ Pool.Populated.changeHealth h) trivial

theorem markDead_keeps : (markDead s number).Keeps Peopled (fun _ _ ↦ True) sh :=
  .now_bind fun _ ↦ mark_keeps

theorem ping_keeps {timeout : Nat} (hp : p.tried = tried) :
    (ping s node timeout p).Keeps Peopled (fun out _ ↦ out.2.tried = tried) sh := by
  unfold ping
  split
  · exact .pure hp
  · refine .call_bind fun answer sh₁ _ ↦ ?_
    split
    · dsimp only
      split_ifs
      · exact .pure hp
      · exact .pure hp
    · exact .pure hp

theorem attempt_keeps (hp : p.tried = tried) :
    (attempt c number node p).Keeps Peopled (fun out _ ↦ Tried tried out) sh := by
  unfold attempt
  split
  · exact .pure (not_nodeless_config _)
  · refine .call_bind fun answer sh₁ h₁ ↦ ?_
    split
    · split_ifs
      · exact .bind markDead_keeps h₁ fun _ _ _ _ ↦ .pure hp
      · exact .bind mark_keeps h₁ fun _ _ _ _ ↦ .pure (not_nodeless_respond _ _ _)
      · exact .bind mark_keeps h₁ fun _ _ _ _ ↦ .pure (not_nodeless_respond _ _ _)
    · exact .bind markDead_keeps h₁ fun _ _ _ _ ↦ .pure hp

theorem visit_keeps (h : Peopled sh) (hp : p.tried = tried) :
    (visit c number node p).Keeps Peopled (fun out _ ↦ Tried tried out) sh := by
  refine .look_bind ?_
  split_ifs
  · refine .bind (ping_keeps hp) h fun out sh₁ h₁ hout ↦ ?_
    split
    · exact attempt_keeps hout
    · exact .bind markDead_keeps h₁ fun _ _ _ _ ↦ .pure hout
  · exact attempt_keeps hp

end Visits

/-! ### The walk -/

/-- A walk has come to a node before, or it begins with the ring as it is. -/
def Assured (p : Progress) (w : Walk) (sh : Shared) : Prop :=
  1 ≤ p.tried ∨ (w.begun = false ∧ w.all = sh.pool.ring)

/-- A walk that begins comes to a node. -/
theorem stride_keeps (h : Peopled sh) (hassured : Assured p w sh) :
    (stride w p).Keeps Peopled
      (fun out _ ↦ out.2.2.tried = p.tried ∧ (out.1 = none → 1 ≤ p.tried)) sh := by
  refine .now_bind fun moment ↦ .look_bind ?_
  refine .change_bind (fun _ ↦ h.next w moment) (.pure ⟨rfl, ?_⟩)
  intro hnone
  rcases hassured with htried | ⟨hbegun, hall⟩
  · exact htried
  · have honward := w.onward_next sh.pool moment
    obtain ⟨number, node, hnumber, hnode⟩ := honward.exists_node hbegun hall h
    simp [hnumber, hnode] at hnone

theorem sendOnly_keeps {node : Url} :
    (sendOnly c node).Keeps Peopled (fun result _ ↦ ¬ Nodeless result) sh := by
  unfold sendOnly
  split
  · exact .pure (not_nodeless_config _)
  · refine .call_bind fun answer sh₁ _ ↦ ?_
    split
    · exact .pure (not_nodeless_respond _ _ _)
    · refine .pure ?_
      rintro ⟨g, hg, hwhy⟩
      cases hg
      cases hwhy

section Spelled

variable [Url.Domain.Spelling]

theorem walk_keeps {another : Progress → Program (Except Failure Response)}
    (hanother : ∀ p sh, Peopled sh → 1 ≤ p.tried →
      (another p).Keeps Peopled (fun result _ ↦ ¬ Nodeless result) sh)
    {turns : Nat} (h : Peopled sh) (hassured : Assured p w sh)
    (hturns : turns = 0 → 1 ≤ p.tried) :
    (walk c another turns w p).Keeps Peopled (fun result _ ↦ ¬ Nodeless result) sh := by
  induction turns generalizing w p sh with
  | zero => exact .pure (not_nodeless_runOut (hturns rfl))
  | succ turns ih =>
    refine .bind (stride_keeps h hassured) h fun out sh₁ h₁ hout ↦ ?_
    obtain ⟨found, w', p'⟩ := out
    obtain ⟨htried, hnone⟩ := hout
    cases found with
    | none => exact .pure (not_nodeless_runOut (htried.symm ▸ hnone rfl))
    | some found =>
      refine .now_bind fun moment ↦ ?_
      dsimp only
      split_ifs
      · exact .pure (not_nodeless_surrender (by decide))
      · exact .pure (not_nodeless_surrender (by decide))
      · refine .bind (visit_keeps h₁ rfl) h₁ fun out sh₂ h₂ hout ↦ ?_
        cases out with
        | answered result => exact .pure hout
        | failed p₂ =>
          refine .bind (sniffOnFault_keeps h₂ hout) h₂ fun out sh₃ h₃ hout ↦ ?_
          obtain ⟨learnt, p₃⟩ := out
          have hsome : 1 ≤ p₃.tried := by rw [show p₃.tried = p'.tried + 1 from hout]; omega
          dsimp only
          split_ifs
          · exact hanother p₃ sh₃ h₃ hsome
          · exact ih h₃ (.inl hsome) fun _ ↦ hsome

theorem walks_keeps {more : Nat} (h : Peopled sh) (hmore : more = 0 → 1 ≤ p.tried) :
    (walks c more p).Keeps Peopled (fun result _ ↦ ¬ Nodeless result) sh := by
  induction more generalizing p sh with
  | zero => exact .pure (not_nodeless_runOut (hmore rfl))
  | succ more ih =>
    refine .look_bind (.change_bind (fun _ ↦ Pool.Populated.walk h) ?_)
    refine walk_keeps (fun p sh h htried ↦ ih h fun _ ↦ htried) ?_ ?_ nofun
    · exact Pool.Populated.walk h
    · exact .inr ⟨Pool.begun_walk _, (Pool.all_walk _).trans (Pool.ring_walk _).symm⟩

/-- A request that is sent over a pool with nodes comes to one of them, and leaves nodes in it. -/
theorem send_keeps (s : Settings) (r : Request) (h : Peopled sh) :
    (send s r).Keeps Peopled (fun result _ ↦ ¬ Nodeless result) sh := by
  refine .now_bind fun began ↦ .look_bind ?_
  split
  · exact sendOnly_keeps
  · refine .bind sniffOnStartup_keeps h fun out sh₁ h₁ hout ↦ ?_
    split
    · exact .pure (hout _ rfl)
    · exact .bind sniffIfStale_keeps h₁ fun p sh₂ h₂ _ ↦ walks_keeps h₂ nofun

/-! ### Among others -/

/-- What goes on at the same time: requests are sent, and pools are handled from outside. -/
inductive Undertaking where
  | send (request : Request)
  | handle (handling : Handling)

/-- The program of an undertaking. Only a request has a result. -/
def Undertaking.program (s : Settings) : Undertaking → Program (Option (Except Failure Response))
  | send request => do return some (← SearchClient.send s request)
  | handle handling => do
    Program.change fun sh ↦ { sh with pool := handling.apply sh.pool }
    return none

/-- Undertakings that set out together, each whenever it likes. -/
def together (s : Settings) (undertakings : List Undertaking) (start : Scene) :
    Crowd (Option (Except Failure Response)) :=
  { scene := start, programs := undertakings.map (·.program s) }

theorem Undertaking.keeps (s : Settings) (undertaking : Undertaking) (h : Peopled sh) :
    (undertaking.program s).Keeps Peopled
      (fun out _ ↦ ∀ result, out = some result → ¬ Nodeless result) sh := by
  cases undertaking with
  | send request =>
    refine .bind (send_keeps s request h) h fun result _ _ hresult ↦ .pure ?_
    rintro _ ⟨⟩
    exact hresult
  | handle handling =>
    refine .change_bind (fun h ↦ Pool.Populated.apply h handling) (.pure fun _ hnone ↦ ?_)
    cases hnone

variable {pool : Pool} {kind : PoolKind} {urls : List Url}

/-- There is always a node to try. A pool that was made and then handled in whatever way has nodes,
and a walk that begins over it comes to a node of its ring, whatever is done until it is asked and
whatever the clock shows then. So no request ever gives up because it came to no node, neither
alone, whatever the clock shows, nor among other requests and handlings of the pool. -/
theorem always_a_node (hmake : Pool.make kind urls = .ok pool) (handlings : List Handling) :
    (pool.handled handlings).nodes ≠ [] ∧
    (∀ later now, ∃ number node,
      ((pool.handled handlings).walk.1.next
        ((pool.handled handlings).walk.2.handled later) now).node = some number ∧
      number ∈ (pool.handled handlings).ring ∧
      ((pool.handled handlings).walk.2.handled later).node? number = some node) ∧
    (∀ s r sh deeds result sh', sh.pool = pool.handled handlings →
      (send s r).Runs sh deeds result sh' → ¬ Nodeless result ∧ sh'.pool.nodes ≠ []) ∧
    ∀ s undertakings start choices c, start.shared.pool = pool.handled handlings →
      (together s undertakings start).play choices = some c →
      c.scene.shared.pool.nodes ≠ [] ∧
        ∀ result, .done (some result) ∈ c.programs → ¬ Nodeless result := by
  have hpool : (pool.handled handlings).Populated :=
    (Pool.populated_of_make hmake).handled handlings
  refine ⟨hpool.nodes_ne_nil, hpool.exists_node_of_walk, ?_, ?_⟩
  · intro s r sh deeds result sh' hsh hrun
    have hbegin : Peopled sh := by rwa [Peopled, hsh]
    obtain ⟨hend, hresult⟩ := (send_keeps s r hbegin).runs hrun hbegin
    exact ⟨hresult, hend.nodes_ne_nil⟩
  · intro s undertakings start choices c hstart hplay
    have hbegin : Peopled start.shared := by rwa [Peopled, hstart]
    have hprograms : ∀ p ∈ (together s undertakings start).programs, ∀ sh, Peopled sh →
        p.Keeps Peopled (fun out _ ↦ ∀ result, out = some result → ¬ Nodeless result) sh := by
      intro p hp sh hsh
      obtain ⟨undertaking, -, rfl⟩ := List.mem_map.mp hp
      exact undertaking.keeps s hsh
    obtain ⟨hend, hresults⟩ := Crowd.keeps_play hbegin hprograms hplay
    exact ⟨hend.nodes_ne_nil, fun result hdone ↦ hresults _ hdone result rfl⟩

end Spelled

/-! ### Two dead nodes -/

/-- The health of a node that is not due for some time. -/
def longDead : Health :=
  { alive := false, resurrected := false, failures := 1, deadUntil := some 1000 }

/-- Two nodes die, while a list without nodes changes nothing. -/
def deaths : List Handling :=
  [.reseed [], .mark 0 fun _ ↦ longDead, .view, .mark 1 fun _ ↦ longDead]

/-- Two nodes that are dead. -/
def deadPair : Pool := welcoming.shared.pool.handled deaths

/-- A request is sent over two dead nodes, while others handle the pool. -/
def overDeadPair : Crowd (Option (Except Failure Response)) :=
  together watchful [.handle (.reseed []), .send plainRequest, .handle (.mark 0 fun _ ↦ longDead)]
    { shared := { pool := deadPair } }

/-- The others come in whenever the request waits for its answers. -/
def deadChoices : List Choice :=
  let answered : Choice := { who := 1, answer := .ok { status := 200, body := [] } }
  stint 1 0 12 ++ stint 0 0 2 ++ [answered] ++ stint 2 0 2 ++ [answered] ++ stint 1 0 2

/-- What the request comes to. -/
def revivedPair : Crowd (Option (Except Failure Response)) :=
  (overDeadPair.play deadChoices).getD overDeadPair

/-- Whether a program has come to a response. -/
def isAnswered : Program (Option (Except Failure Response)) → Bool
  | .done (some (.ok _)) => true
  | _ => false

theorem exists_of_isAnswered {p : Program (Option (Except Failure Response))}
    (h : isAnswered p = true) : ∃ response, p = .done (some (.ok response)) := by
  unfold isAnswered at h
  split at h
  · exact ⟨_, rfl⟩
  · cases h

/-- Of two dead nodes one is tried before its time, and the request over them comes to an end. -/
theorem always_a_node_of_dead :
    Pool.make .sniffing [nodeAt "a", nodeAt "b"] = .ok welcoming.shared.pool ∧
    deadPair.nodes.map (·.health.alive) = [false, false] ∧
    (∃ number node, (deadPair.walk.1.next deadPair.walk.2 0).node = some number ∧
      number ∈ deadPair.ring ∧ deadPair.walk.2.node? number = some node) ∧
    ∃ result, .done (some result) ∈ revivedPair.programs ∧ ¬ Nodeless result := by
  have hmake : Pool.make .sniffing [nodeAt "a", nodeAt "b"] = .ok welcoming.shared.pool := rfl
  have hsome : (overDeadPair.play deadChoices).isSome = true := by decide +kernel
  have hplay : overDeadPair.play deadChoices = some revivedPair := by
    obtain ⟨c, hc⟩ := Option.isSome_iff_exists.mp hsome
    rw [revivedPair, hc, Option.getD_some]
  have hdone : revivedPair.programs.any isAnswered = true := by decide +kernel
  obtain ⟨p, hp, hanswered⟩ := List.any_eq_true.mp hdone
  obtain ⟨response, rfl⟩ := exists_of_isAnswered hanswered
  obtain ⟨-, hwalk, -, htogether⟩ := always_a_node hmake deaths
  obtain ⟨-, hresults⟩ := htogether watchful _ _ deadChoices revivedPair rfl hplay
  exact ⟨hmake, rfl, hwalk [] 0, _, hp, hresults _ hp⟩

end Send

end SearchClient
