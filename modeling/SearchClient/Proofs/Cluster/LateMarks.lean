import SearchClient.Proofs.Cluster.SniffAge

/-!
# Marks that come late

A request marks the node that it tried, and it knows that node by a number of the ring that it
walks. While it waits for an answer another request may be told new nodes. The nodes of the new ring
have new numbers (`Goes.le_of_reseed`) and begin with the health that is known then, so a mark that
comes later is kept of a node that is no more in the ring, even if its locator is. `Lands` says what
becomes of a mark in either case, and from which answer it comes.

Health belongs to nodes, not to locators. Two nodes of a ring with one locator are two nodes, and a
mark is kept of the one that was tried.
-/

set_option autoImplicit false
set_option relaxedAutoImplicit false

namespace SearchClient

/-! ### Pools that grow -/

/-- The nodes that there were are still there, with their locators. -/
structure Pool.Grows (pool pool' : Pool) : Prop where
  length_le : pool.register.length ≤ pool'.register.length
  keeps : ∀ number node, pool.node? number = some node →
    ∃ node', pool'.node? number = some node' ∧ node'.url = node.url

namespace Pool.Grows

variable {pool : Pool} {number : Nat} {change : Health → Health}

theorem refl (pool : Pool) : pool.Grows pool :=
  ⟨Nat.le_refl _, fun _ node hnode ↦ ⟨node, hnode, rfl⟩⟩

theorem changeHealth : pool.Grows (pool.changeHealth number change) := by
  refine ⟨Nat.le_of_eq length_register_changeHealth.symm, fun other node hnode ↦ ?_⟩
  by_cases hother : number = other
  · subst hother
    refine ⟨{ node with health := change node.health }, ?_, rfl⟩
    rw [node?_changeHealth_self, hnode, Option.map_some]
  · exact ⟨node, by rw [node?_changeHealth_of_ne hother, hnode], rfl⟩

theorem exists_of_exists {pool' : Pool} {url : Url} (h : pool.Grows pool')
    (hnode : ∃ node, pool.node? number = some node ∧ node.url = url) :
    ∃ node, pool'.node? number = some node ∧ node.url = url := by
  obtain ⟨node, hnode, rfl⟩ := hnode
  exact h.keeps number node hnode

theorem walk : pool.Grows pool.walk.2 :=
  ⟨Nat.le_of_eq (congrArg List.length (register_walk pool).symm),
    fun number node hnode ↦ ⟨node, by rw [node?_walk, hnode], rfl⟩⟩

theorem reseed (nodes : List Node) : pool.Grows (pool.reseed nodes).1 := by
  refine ⟨?_, fun number node hnode ↦ ⟨node, node?_reseed hnode nodes, rfl⟩⟩
  by_cases htakes : pool.kind.takesNewNodes = true ∧ nodes ≠ []
  · simp [reseed_of_takes htakes.1 htakes.2]
  · simp [reseed_of_not_takes htakes]

end Pool.Grows

namespace Send

/-! ### What becomes of a mark -/

/-- New nodes take the place of all. -/
def Move.reseeds : Move → Bool
  | .reseed .. => true
  | _ => false

/-- New nodes took the place of all. -/
def Reseeded (story : List Happening) : Prop := ∃ h ∈ story, h.move.reseeds = true

/-- The node that a move asks, and what its answer tells of it. -/
def Move.heard? : Move → Option (Nat × Url × Verdict)
  | .ping number url _ answer => some (number, url, .ofPing answer)
  | .attempt number url _ answer => some (number, url, .ofAttempt answer)
  | _ => none

/-- What a request knows about the node that it tries is what the last answer tells, if there is
one. -/
def Learned (who number : Nat) (url : Url) (verdict : Verdict) (story : List Happening) : Prop :=
  verdict = .undecided ∨ ∃ since heard before, story = since ++ heard :: before ∧
    heard.who = who ∧ heard.move.heard? = some (number, url, verdict) ∧
    ∀ other ∈ since, other.who = who → other.move = .idle

/-- A mark is kept of whichever node of the ring has a locator. -/
def MarkedInRing (s : Settings) (pool : Pool) (url : Url) (what : Mark) : Prop :=
  ∀ node ∈ pool.nodes, node.url = url → ∃ health, node.health = what.apply s health

/-- A node is marked in a walk that another happening began, after what happened since. -/
structure Lands (s : Settings) (h : Happening) (number : Nat) (url : Url) (what : Mark)
    (since : List Happening) (v : Happening) : Prop where
  /-- The node was in the ring when the walk began. -/
  viewed : number ∈ v.after.shared.pool.ring
  /-- The mark is the one that the last answer of the node calls for. -/
  earned : ∃ verdict, verdict.CallsFor s url h.before.moment what ∧
    Learned h.who number url verdict since
  /-- The mark is kept of that node. -/
  itself : ∃ node, h.before.shared.pool.node? number = some node ∧ node.url = url ∧
    h.after.shared.pool.node? number = some { node with health := what.apply s node.health }
  /-- No other node is changed. -/
  others : ∀ other, other ≠ number →
    h.after.shared.pool.node? other = h.before.shared.pool.node? other
  /-- While the ring is that of the walk, the node is in it, and the mark is kept of whichever node
  has its locator if no two have the same. -/
  current : ¬ Reseeded since → h.after.shared.pool.ring = v.after.shared.pool.ring ∧
    ((h.after.shared.pool.nodes.map Node.url).Nodup →
      MarkedInRing s h.after.shared.pool url what)
  /-- After that, no node of the ring is changed. -/
  replaced : Reseeded since → number ∉ h.after.shared.pool.ring ∧
    h.after.shared.pool.nodes = h.before.shared.pool.nodes

/-- The ring that a request walks. -/
def Place.view? : Place → Option (List Nat)
  | walking view | trying view _ _ _ => some view
  | _ => none

/-- A request walks the ring that it found at its last view. It is still the ring of the pool unless
new nodes took the place of all since, and then no node of it is in the pool's. -/
def ViewedSince (pool : Pool) (who : Nat) (view : List Nat) (story : List Happening) : Prop :=
  (∀ i ∈ view, i < pool.register.length) ∧
    ∃ since v before, story = since ++ v :: before ∧ v.who = who ∧ v.move = .view ∧
      v.after.shared.pool.ring = view ∧ (∀ other ∈ since, other.who = who → other.move ≠ .view) ∧
      (¬ Reseeded since → pool.ring = view) ∧ (Reseeded since → ∀ i ∈ view, i ∉ pool.ring)

variable {s : Settings} {requests : List Request} {start : Scene}
  {c c' : Crowd (Except Failure Response)} {places : Nat → Place} {story : List Happening}
  {h : Happening} {r : Request} {j number : Nat} {view : List Nat} {url : Url} {verdict : Verdict}

theorem Reseeded.cons {story : List Happening} (hreseeded : Reseeded story) :
    Reseeded (h :: story) := by
  obtain ⟨other, hother, hmove⟩ := hreseeded
  exact ⟨other, List.mem_cons_of_mem _ hother, hmove⟩

theorem reseeded_cons_iff (hmove : h.move.reseeds = false) :
    Reseeded (h :: story) ↔ Reseeded story := by
  refine ⟨fun hreseeded ↦ ?_, Reseeded.cons⟩
  obtain ⟨other, hother, hreseeds⟩ := hreseeded
  rcases List.mem_cons.mp hother with rfl | hother
  · rw [hmove] at hreseeds
    cases hreseeds
  · exact ⟨other, hother, hreseeds⟩

namespace Goes

variable [Url.Domain.Spelling] {who : Nat} {place place' : Place} {sc sc' : Scene} {move : Move}

/-- What holds of the pool after a move, if it holds whatever a move can make of the pool. -/
theorem pool_of {P : Pool → Prop} (h : Goes s r who place sc move place' sc')
    (hstays : P sc.shared.pool)
    (hreseed : ∀ found, (∀ node ∈ found, node.health = {}) → P (sc.shared.pool.reseed found).1)
    (hwalk : P sc.shared.pool.walk.2)
    (hrevive : ∀ number, P (sc.shared.pool.changeHealth number Health.revive))
    (hmark : ∀ number what, P (sc.shared.pool.changeHealth number (Mark.apply s what))) :
    P sc'.shared.pool := by
  cases h with
  | reseed _ hfound => exact hreseed _ (Sniff.health_of_readNodes hfound)
  | view => exact hwalk
  | mark => exact hmark _ _
  | spent hpool =>
    rcases hpool with rfl | ⟨number, rfl⟩
    · exact hstays
    · exact hrevive number
  | stride _ _ hpool =>
    rcases hpool with rfl | rfl
    · exact hstays
    · exact hrevive _
  | _ => exact hstays

theorem grows (h : Goes s r who place sc move place' sc') :
    sc.shared.pool.Grows sc'.shared.pool :=
  h.pool_of (.refl _) (fun found _ ↦ .reseed found) .walk (fun _ ↦ .changeHealth)
    fun _ _ ↦ .changeHealth

theorem sound (h : Goes s r who place sc move place' sc') (hsound : sc.shared.pool.Sound) :
    sc'.shared.pool.Sound :=
  h.pool_of hsound (fun found _ ↦ hsound.reseed found) hsound.walk (fun _ ↦ hsound.changeHealth)
    fun _ _ ↦ hsound.changeHealth

/-- Only new nodes change the ring. -/
theorem ring_eq (h : Goes s r who place sc move place' sc') (hmove : move.reseeds = false) :
    sc'.shared.pool.ring = sc.shared.pool.ring := by
  cases h with
  | reseed => cases hmove
  | view => exact Pool.ring_walk _
  | spent hpool => rcases hpool with rfl | ⟨number, rfl⟩ <;> rfl
  | stride _ _ hpool => rcases hpool with rfl | rfl <;> rfl
  | _ => rfl

/-- New nodes have new numbers. -/
theorem le_of_reseed (h : Goes s r who place sc move place' sc') (hmove : move.reseeds = true)
    (hkind : sc.shared.pool.kind = .sniffing) :
    ∀ i ∈ sc'.shared.pool.ring, sc.shared.pool.register.length ≤ i := by
  cases h with
  | @reseed _ _ _ _ _ found _ hfound =>
    have htakes : sc.shared.pool.kind.takesNewNodes = true := by rw [hkind]; rfl
    have hnonempty : found ≠ [] := by
      rintro rfl
      exact Sniff.readNodes_ne_nil hfound
    rw [Pool.reseed_of_takes htakes hnonempty]
    intro i hi
    obtain ⟨offset, -, rfl⟩ := List.mem_range'.mp hi
    exact Nat.le_add_right ..
  | _ => cases hmove

/-- A request walks the ring that there was when its walk began. -/
theorem view?_of (h : Goes s r who place sc move place' sc') (hview : place'.view? = some view) :
    (place.view? = some view ∧ move ≠ .view ∧ move.reseeds = false) ∨
      move = .view ∧ sc.shared.pool.ring = view := by
  cases h with
  | look | clock => exact .inl ⟨hview, nofun, rfl⟩
  | ask => exact .inl ⟨hview, nofun, rfl⟩
  | view => exact .inr ⟨rfl, Option.some.inj hview⟩
  | spent | stride | ping | attempt | mark => exact .inl ⟨hview, nofun, rfl⟩
  | finish =>
    rename_i occasion
    cases occasion <;> cases hview
  | _ => cases hview

/-- A request tries a node that it took from the ring that it walks, and learns about it from its
answers only. -/
theorem trying_of (h : Goes s r who place sc move place' sc')
    (hplace : place' = .trying view number url verdict) :
    (place = .trying view number url verdict ∧ move = .idle) ∨
      (place = .trying view number url .undecided ∧ move.heard? = some (number, url, verdict)) ∨
      verdict = .undecided ∧ number ∈ view ∧
        ∃ node, sc.shared.pool.node? number = some node ∧ node.url = url := by
  cases h with
  | look | clock => exact .inl ⟨hplace, rfl⟩
  | ping | attempt =>
    cases hplace
    exact .inr (.inl ⟨rfl, rfl⟩)
  | stride hview hnode =>
    cases hplace
    exact .inr (.inr ⟨rfl, hview, _, hnode, rfl⟩)
  | ask _ hconsults => cases hconsults <;> cases hplace
  | finish =>
    rename_i occasion
    cases occasion <;> cases hplace
  | _ => cases hplace

/-- A request marks the node that it tries as it has to, and nothing else. -/
theorem of_mark {what : Mark} (h : Goes s r who place sc (.mark number url what) place' sc') :
    ∃ view verdict, place = .trying view number url verdict ∧
      verdict.CallsFor s url sc.moment what ∧
      sc'.shared.pool = sc.shared.pool.changeHealth number (what.apply s) := by
  cases h with
  | mark hcalls => exact ⟨_, _, rfl, hcalls, rfl⟩

/-- Only a mark does more to a node than to give it another chance. -/
theorem spares (h : Goes s r who place sc move place' sc')
    (hmark : ∀ url what, move ≠ .mark number url what) :
    sc.shared.pool.Spares sc'.shared.pool number := by
  cases h with
  | reseed => exact fun node hnode ↦ ⟨node.health.resurrected, Pool.node?_reseed hnode _⟩
  | view => exact Pool.spares_of_eq (Pool.node?_walk _ number)
  | spent hpool =>
    rcases hpool with rfl | ⟨revived, rfl⟩
    · exact Pool.spares_of_eq rfl
    · exact Pool.spares_revive
  | stride _ _ hpool =>
    rcases hpool with rfl | rfl
    · exact Pool.spares_of_eq rfl
    · exact Pool.spares_revive
  | @mark _ _ marked url _ what =>
    refine Pool.spares_of_eq (Pool.node?_changeHealth_of_ne ?_)
    rintro rfl
    exact hmark url what rfl
  | _ => exact Pool.spares_of_eq rfl

end Goes

/-- While a request does nothing that the others could notice it learns nothing. -/
theorem Learned.cons (hlearned : Learned j number url verdict story)
    (hown : h.who = j → h.move = .idle) : Learned j number url verdict (h :: story) := by
  rcases hlearned with hverdict | ⟨since, heard, before, rfl, hwho, hheard, hidle⟩
  · exact .inl hverdict
  · exact .inr ⟨h :: since, heard, before, rfl, hwho, hheard,
      List.forall_mem_cons.mpr ⟨hown, hidle⟩⟩

/-- What a request knows about a node it learnt after it began its walk. -/
theorem Learned.since {since before : List Happening} {v : Happening}
    (hlearned : Learned j number url verdict (since ++ v :: before)) (hwho : v.who = j)
    (hview : v.move = .view) : Learned j number url verdict since := by
  rcases hlearned with hverdict | ⟨recent, heard, earlier, hstory, hsame, hheard, hidle⟩
  · exact .inl hverdict
  · obtain ⟨between, rfl, -⟩ := exists_of_append_cons_eq
      (fun other : Happening ↦ other.who = j ∧ other.move = .view) hstory.symm
      (fun other hother hviews ↦ by cases (hidle other hother hviews.1).symm.trans hviews.2)
      (fun hviews ↦ by rw [hviews.2] at hheard; cases hheard) ⟨hwho, hview⟩
    exact .inr ⟨recent, heard, between, rfl, hsame, hheard, hidle⟩

/-- A request walks the same ring until its next view. -/
theorem ViewedSince.cons [Url.Domain.Spelling] {who : Nat} {place place' : Place}
    {sc sc' : Scene} {move : Move}
    (h : ViewedSince sc.shared.pool j view story) (hgoes : Goes s r who place sc move place' sc')
    (hkind : sc.shared.pool.kind = .sniffing) (hown : who = j → move ≠ .view) :
    ViewedSince sc'.shared.pool j view (⟨who, move, sc, sc'⟩ :: story) := by
  obtain ⟨hlisted, since, v, before, rfl, hwho, hmove, hring, hlast, hsame, hother⟩ := h
  refine ⟨fun i hi ↦ Nat.lt_of_lt_of_le (hlisted i hi) hgoes.grows.length_le,
    ⟨who, move, sc, sc'⟩ :: since, v, before, rfl, hwho, hmove, hring,
    List.forall_mem_cons.mpr ⟨hown, hlast⟩, ?_⟩
  cases hreseeds : move.reseeds with
  | false =>
    rw [reseeded_cons_iff hreseeds, hgoes.ring_eq hreseeds]
    exact ⟨hsame, hother⟩
  | true =>
    refine ⟨fun hnever ↦ absurd ⟨_, List.mem_cons_self, hreseeds⟩ hnever, fun _ i hi hnew ↦ ?_⟩
    have hle := hgoes.le_of_reseed hreseeds hkind i hnew
    exact absurd (hlisted i hi) (Nat.not_lt.mpr hle)

namespace Chronicle

variable [Url.Domain.Spelling]

theorem sound (hstory : Chronicle s requests start c places story)
    (hsound : start.shared.pool.Sound) : c.scene.shared.pool.Sound := by
  induction hstory with
  | start => exact hsound
  | happen _ _ _ hgoes _ _ ih => exact hgoes.sound ih

/-- A node that a request tries is one of those that it walks, and it is where it was. -/
theorem exists_of_trying (hstory : Chronicle s requests start c places story)
    (hplace : places j = .trying view number url verdict) :
    number ∈ view ∧ ∃ node, c.scene.shared.pool.node? number = some node ∧ node.url = url := by
  revert verdict
  refine hstory.follow (P := fun place sc _ ↦ ∀ {verdict}, place = .trying view number url verdict →
    number ∈ view ∧ ∃ node, sc.shared.pool.node? number = some node ∧ node.url = url) j nofun ?_ ?_
  · intro c places story r move place' sc' _ _ hgoes ih verdict hplace
    have hbefore : number ∈ view ∧
        ∃ node, c.scene.shared.pool.node? number = some node ∧ node.url = url := by
      rcases hgoes.trying_of hplace with ⟨hbefore, -⟩ | ⟨hbefore, -⟩ | ⟨-, htaken⟩
      · exact ih hbefore
      · exact ih hbefore
      · exact htaken
    exact hbefore.imp_right hgoes.grows.exists_of_exists
  · intro c places story r who move place' sc' _ _ hgoes ih verdict hplace
    exact (ih hplace).imp_right hgoes.grows.exists_of_exists

/-- What a request knows about a node it learnt from the node's last answer. -/
theorem learned (hstory : Chronicle s requests start c places story)
    (hplace : places j = .trying view number url verdict) :
    Learned j number url verdict story := by
  revert verdict
  refine hstory.follow (P := fun place _ story ↦ ∀ {verdict},
    place = .trying view number url verdict → Learned j number url verdict story) j nofun ?_ ?_
  · intro c places story r move place' sc' _ _ hgoes ih verdict hplace
    rcases hgoes.trying_of hplace with ⟨hbefore, hidle⟩ | ⟨-, hheard⟩ | ⟨hverdict, -⟩
    · exact (ih hbefore).cons fun _ ↦ hidle
    · exact .inr ⟨[], _, story, rfl, rfl, hheard, by simp⟩
    · exact .inl hverdict
  · intro c places story r who move place' sc' hj _ _ ih verdict hplace
    exact (ih hplace).cons fun hwho ↦ absurd hwho hj

/-- A request that walks a ring has done so since its last view. -/
theorem viewedSince (hstory : Chronicle s requests start c places story)
    (hsound : start.shared.pool.Sound) (hkind : start.shared.pool.kind = .sniffing)
    (hview : (places j).view? = some view) : ViewedSince c.scene.shared.pool j view story := by
  revert hview
  refine hstory.follow (P := fun place sc story ↦ place.view? = some view →
    ViewedSince sc.shared.pool j view story) j nofun ?_ ?_
  · intro c places story r move place' sc' earlier _ hgoes ih hview
    rcases hgoes.view?_of hview with ⟨hbefore, hmove, -⟩ | ⟨hmove, hring⟩
    · exact (ih hbefore).cons hgoes (earlier.kind_eq.trans hkind) fun _ ↦ hmove
    · subst hmove
      have hring' : sc'.shared.pool.ring = view := (hgoes.ring_eq rfl).trans hring
      refine ⟨fun i hi ↦ ?_, [], _, story, rfl, rfl, rfl, hring', by simp, fun _ ↦ hring', ?_⟩
      · exact (hgoes.sound (earlier.sound hsound)).listed i (hring' ▸ hi)
      · rintro ⟨_, hnone, -⟩
        cases hnone
  · intro c places story r who move place' sc' hj earlier hgoes ih hview
    exact (ih hview).cons hgoes (earlier.kind_eq.trans hkind) fun hwho ↦ absurd hwho hj

/-- A mark lands on the node that was tried. -/
theorem lands (hstory : Chronicle s requests start c places (h :: story))
    (hsound : start.shared.pool.Sound) (hkind : start.shared.pool.kind = .sniffing) {what : Mark}
    (hmove : h.move = .mark number url what) :
    ∃ since v before, story = since ++ v :: before ∧ v.who = h.who ∧ v.move = .view ∧
      (∀ other ∈ since, other.who = h.who → other.move ≠ .view) ∧
      Lands s h number url what since v := by
  obtain ⟨c₁, places₁, r, place', hearlier, -, hscene, -, hgoes, -⟩ := hstory.goes
  rw [hmove] at hgoes
  obtain ⟨view, verdict, hplace, hcalls, hpool⟩ := hgoes.of_mark
  have hlearned := hearlier.learned hplace
  obtain ⟨hmem, node, hnode, hurl⟩ := hearlier.exists_of_trying hplace
  obtain ⟨-, since, v, before, rfl, hwho, hview, hring, hlast, hsame, hother⟩ :=
    hearlier.viewedSince hsound hkind (j := h.who) (by rw [hplace]; rfl)
  rw [hscene] at hnode hsame hother
  have hitself : h.after.shared.pool.node? number =
      some { node with health := what.apply s node.health } := by
    rw [hpool, Pool.node?_changeHealth_self, hnode, Option.map_some]
  have hothers : ∀ other, other ≠ number →
      h.after.shared.pool.node? other = h.before.shared.pool.node? other := by
    intro other hne
    rw [hpool, Pool.node?_changeHealth_of_ne (Ne.symm hne)]
  have hafter : h.after.shared.pool.ring = h.before.shared.pool.ring := by
    rw [hpool, Pool.ring_changeHealth]
  refine ⟨since, v, before, rfl, hwho, hview, hlast, hring ▸ hmem,
    ⟨verdict, hcalls, hlearned.since hwho hview⟩, ⟨node, hnode, hurl, hitself⟩, hothers,
    fun hnever ↦ ⟨?_, fun hdistinct marked hmarked hsameUrl ↦ ?_⟩, fun hreseeded ↦ ⟨?_, ?_⟩⟩
  · rw [hafter, hsame hnever, hring]
  · -- Two nodes with one locator are one node.
    have hself : { node with health := what.apply s node.health } ∈ h.after.shared.pool.nodes := by
      refine Pool.mem_nodes_iff.mpr ⟨number, ?_, hitself⟩
      rwa [hafter, hsame hnever]
    have hone := List.inj_on_of_nodup_map hdistinct hmarked hself (hsameUrl.trans hurl.symm)
    exact ⟨node.health, by rw [hone]⟩
  · rw [hafter]
    exact hother hreseeded number hmem
  · rw [Pool.nodes_eq, Pool.nodes_eq, hafter]
    refine List.filterMap_congr fun i hi ↦ hothers i ?_
    rintro rfl
    exact hother hreseeded i hmem hi

/-- A node that died in the last step was marked in it. -/
theorem dead_of_died (hstory : Chronicle s requests start c places (h :: story)) {node node' : Node}
    (hnode : h.before.shared.pool.node? number = some node) (halive : node.health.alive = true)
    (hnode' : h.after.shared.pool.node? number = some node') (hdied : node'.health.alive = false) :
    ∃ moment, h.move = .mark number node.url (.dead moment) := by
  obtain ⟨c₁, places₁, r, place', hearlier, -, hscene, -, hgoes, -⟩ := hstory.goes
  by_cases hmark : ∃ url what, h.move = .mark number url what
  · obtain ⟨url, what, hmove⟩ := hmark
    rw [hmove] at hgoes
    obtain ⟨view, verdict, hplace, -, hpool⟩ := hgoes.of_mark
    obtain ⟨-, tried, htried, hurl⟩ := hearlier.exists_of_trying hplace
    rw [hscene, hnode, Option.some.injEq] at htried
    rw [hpool, Pool.node?_changeHealth_self, hnode, Option.map_some, Option.some.injEq] at hnode'
    cases what with
    | dead moment => exact ⟨moment, by rw [hmove, htried, hurl]⟩
    | alive =>
      rw [← hnode'] at hdied
      cases hdied
  · simp only [not_exists] at hmark
    obtain ⟨resurrected, hspared⟩ := hgoes.spares hmark node hnode
    rw [hnode', Option.some.injEq] at hspared
    rw [hspared] at hdied
    exact absurd (halive.symm.trans hdied) (by decide)

end Chronicle

/-- However many requests run together: a mark is the one that the last answer of the node calls
for, and it lands on the very node that the request took from its view and on no other. Unless new
nodes took the place of all since the view, that node is in the ring, and with distinct locators it
is the one that has its locator. If new nodes did, no node of the ring is changed, even if its
locator is that of the node. -/
theorem marks_land_on_the_tried_node [Url.Domain.Spelling] {choices : List Choice}
    (hkind : start.shared.pool.kind = .sniffing) (hsound : start.shared.pool.Sound)
    (hplay : (Crowd.ofSends s requests start).play choices = some c) :
    (∃ places story, Chronicle s requests start c places story) ∧
      ∀ places story, Chronicle s requests start c places story →
        ∀ later h before number url what, story = later ++ h :: before →
          h.move = .mark number url what →
          ∃ since v earlier, before = since ++ v :: earlier ∧ v.who = h.who ∧ v.move = .view ∧
            (∀ other ∈ since, other.who = h.who → other.move ≠ .view) ∧
            Lands s h number url what since v := by
  refine ⟨exists_chronicle hplay, ?_⟩
  rintro places story hstory later h before number url what rfl hmove
  obtain ⟨_, _, hmarked⟩ := hstory.earlier
  exact hmarked.lands hsound hkind hmove

/-! ### Marks that the ring misses -/

theorem Scene.sound_among (nodes : List Url) : (Scene.among nodes).shared.pool.Sound :=
  ⟨List.nodup_range, by simp [Scene.among]⟩

/-- The ring misses the death of a node if another node with its locator lives on. -/
theorem exists_missed [Url.Domain.Spelling] {choices : List Choice} {choice : Choice}
    {node node' twin : Node} {i : Nat}
    (hplay : (Crowd.ofSends s requests start).play choices = some c)
    (htake : c.take choice = some c') (hnode : c.scene.shared.pool.node? number = some node)
    (halive : node.health.alive = true)
    (hnode' : c'.scene.shared.pool.node? number = some node') (hdied : node'.health.alive = false)
    (htwin : c'.scene.shared.pool.nodes[i]? = some twin) (hurl : twin.url = node.url)
    (hlives : twin.health.alive = true) :
    ∃ places h story url what, Chronicle s requests start c' places (h :: story) ∧
      h.after = c'.scene ∧ h.move = .mark number url what ∧
      ¬ MarkedInRing s c'.scene.shared.pool url what := by
  obtain ⟨places, story, hbefore⟩ := exists_chronicle hplay
  obtain ⟨places', move, hstory⟩ := hbefore.exists_happen htake
  obtain ⟨moment, hmove⟩ := hstory.dead_of_died hnode halive hnode' hdied
  refine ⟨places', _, story, node.url, .dead moment, hstory, rfl, hmove, fun hmarked ↦ ?_⟩
  obtain ⟨health, hhealth⟩ := hmarked twin (List.mem_of_getElem? htwin) hurl
  rw [hhealth] at hlives
  cases hlives

/-- The first request waits for its answer while the second, which finds the last sniff old, is told
the same node again. Then the first gets its answer, and has to mark the node. -/
def lateChoices : List Choice :=
  stint 0 0 17 ++ stint 1 10 8 ++ [{ who := 1, answer := .ok (listing ["a"]) }] ++ stint 1 10 15 ++
    [{ who := 0, answer := .ok busyReply }] ++ stint 0 11 2

/-- The mark of the first request. -/
def lateMark : Choice := { who := 0, moment := 11 }

/-- What the two requests come to. -/
def lateCrowd : Crowd (Except Failure Response) :=
  .reached (aging 5) [plainRequest, plainRequest] [nodeAt "a"] (lateChoices ++ [lateMark])

/-- A request gets an answer from one of two nodes with one locator, and has to mark it. -/
def twinChoices : List Choice :=
  stint 0 0 17 ++ [{ who := 0, answer := .ok busyReply }] ++ stint 0 0 2

/-- What the request comes to when it has. -/
def twinCrowd : Crowd (Except Failure Response) :=
  .reached (aging 5) [plainRequest] [nodeAt "a", nodeAt "a"] (twinChoices ++ [{ who := 0 }])

/-- The first node failed, and is no more in the ring. -/
theorem mark_lands_late :
    lateCrowd.scene.shared.pool.register.map (·.health.failures) = [1, 0] ∧
      lateCrowd.scene.shared.pool.ring = [1] ∧
      (∃ places story, Chronicle (aging 5) [plainRequest, plainRequest] (.among [nodeAt "a"])
        lateCrowd places story) ∧
      ∀ places story, Chronicle (aging 5) [plainRequest, plainRequest] (.among [nodeAt "a"])
          lateCrowd places story →
        ∀ later h before number url what, story = later ++ h :: before →
          h.move = .mark number url what →
          ∃ since v earlier, before = since ++ v :: earlier ∧ v.who = h.who ∧ v.move = .view ∧
            (∀ other ∈ since, other.who = h.who → other.move ≠ .view) ∧
            Lands (aging 5) h number url what since v :=
  ⟨rfl, rfl, marks_land_on_the_tried_node rfl (Scene.sound_among _)
    (show (Crowd.ofSends _ _ _).play (lateChoices ++ [lateMark]) = some lateCrowd from rfl)⟩

/-- The ring misses a mark that comes late, and a mark of one of two nodes with one locator. -/
theorem ring_misses_late_mark_and_twin :
    (∃ places h story url what,
      Chronicle (aging 5) [plainRequest, plainRequest] (.among [nodeAt "a"]) lateCrowd places
        (h :: story) ∧
      h.after = lateCrowd.scene ∧ h.move = .mark 0 url what ∧
      ¬ MarkedInRing (aging 5) lateCrowd.scene.shared.pool url what) ∧
    ∃ places h story url what,
      Chronicle (aging 5) [plainRequest] (.among [nodeAt "a", nodeAt "a"]) twinCrowd places
        (h :: story) ∧
      h.after = twinCrowd.scene ∧ h.move = .mark 0 url what ∧
      ¬ MarkedInRing (aging 5) twinCrowd.scene.shared.pool url what := by
  constructor
  · exact exists_missed (show (Crowd.ofSends _ _ _).play lateChoices = some _ from rfl)
      (show Crowd.take _ lateMark = some lateCrowd from rfl) rfl rfl rfl rfl
      (show lateCrowd.scene.shared.pool.nodes[0]? = some _ from rfl) rfl rfl
  · exact exists_missed (show (Crowd.ofSends _ _ _).play twinChoices = some _ from rfl)
      (show Crowd.take _ { who := 0 } = some twinCrowd from rfl) rfl rfl rfl rfl
      (show twinCrowd.scene.shared.pool.nodes[1]? = some _ from rfl) rfl rfl

end Send

end SearchClient
