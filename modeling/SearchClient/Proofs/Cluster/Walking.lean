import SearchClient.Cluster.Pool
import Mathlib.Data.List.Basic

/-!
# Walks over a pool

`Walk.Onward` tells all that a walk can do when it is asked for its next node: it takes a node that
may be taken as it is, takes a dead one whose time is over, comes to an end, or, when every node is
dead, takes the one that has been dead longest. `Walk.onward_next` shows that it does one of these,
so nothing else about walks has to look into `Walk.next`.

A pool is sound if its ring names each node once and only nodes that there are. Pools are made sound
and stay so.
-/

set_option autoImplicit false
set_option relaxedAutoImplicit false

namespace SearchClient

namespace Pool

variable {pool : Pool} {number : Nat} {change : Health → Health}

/-! ### Changes of health -/

@[simp] theorem kind_changeHealth : (pool.changeHealth number change).kind = pool.kind := rfl

@[simp] theorem ring_changeHealth : (pool.changeHealth number change).ring = pool.ring := rfl

@[simp] theorem length_register_changeHealth :
    (pool.changeHealth number change).register.length = pool.register.length :=
  List.length_modify ..

/-- The node whose health is changed. -/
theorem node?_changeHealth_self : (pool.changeHealth number change).node? number =
    (pool.node? number).map fun node ↦ { node with health := change node.health } := by
  simp [node?, changeHealth]

/-- The other nodes stay as they are. -/
theorem node?_changeHealth_of_ne {other : Nat} (h : number ≠ other) :
    (pool.changeHealth number change).node? other = pool.node? other := by
  simp [node?, changeHealth, h]

/-- A node may have been given another chance, but nothing else about it has changed. -/
def Spares (pool pool' : Pool) (number : Nat) : Prop :=
  ∀ node, pool.node? number = some node → ∃ resurrected, pool'.node? number =
    some { node with health := { node.health with resurrected := resurrected } }

variable {pool' pool'' : Pool}

theorem spares_of_eq (h : pool'.node? number = pool.node? number) : pool.Spares pool' number := by
  intro node hnode
  exact ⟨node.health.resurrected, by rw [h, hnode]⟩

theorem Spares.trans (h : pool.Spares pool' number) (h' : pool'.Spares pool'' number) :
    pool.Spares pool'' number := by
  intro node hnode
  obtain ⟨first, hfirst⟩ := h node hnode
  obtain ⟨second, hsecond⟩ := h' _ hfirst
  exact ⟨second, hsecond⟩

/-- A node that was spared was there before. -/
theorem Spares.exists_before (h : pool.Spares pool' number)
    (hlength : pool'.register.length = pool.register.length) {node' : Node}
    (hnode' : pool'.node? number = some node') : ∃ node resurrected,
      pool.node? number = some node ∧
      node' = { node with health := { node.health with resurrected := resurrected } } := by
  obtain ⟨hlt, -⟩ := List.getElem?_eq_some_iff.mp hnode'
  rw [hlength] at hlt
  have hnode : pool.node? number = some pool.register[number] := List.getElem?_eq_getElem hlt
  obtain ⟨resurrected, hafter⟩ := h _ hnode
  rw [hnode', Option.some.injEq] at hafter
  exact ⟨_, resurrected, hnode, hafter⟩

/-- To revive a node spares it, as it does the others. -/
theorem spares_revive {other : Nat} :
    pool.Spares (pool.changeHealth number Health.revive) other := by
  by_cases hother : number = other
  · subst hother
    intro node hnode
    refine ⟨true, ?_⟩
    rw [node?_changeHealth_self, hnode]
    rfl
  · exact spares_of_eq (node?_changeHealth_of_ne hother)

/-! ### Sound pools -/

/-- The ring names each node once, and only nodes that there are. -/
structure Sound (pool : Pool) : Prop where
  nodup : pool.ring.Nodup
  listed : ∀ number ∈ pool.ring, number < pool.register.length

theorem sound_of_make {kind : PoolKind} {urls : List Url} (h : make kind urls = .ok pool) :
    pool.Sound := by
  unfold make at h
  split_ifs at h
  cases h
  exact ⟨List.nodup_range, by simp⟩

theorem Sound.changeHealth (h : pool.Sound) : (pool.changeHealth number change).Sound :=
  ⟨h.nodup, by simpa using h.listed⟩

theorem Sound.reseed (h : pool.Sound) (nodes : List Node) : (pool.reseed nodes).1.Sound := by
  unfold Pool.reseed
  split_ifs
  · refine ⟨List.nodup_range', fun number hnumber ↦ ?_⟩
    obtain ⟨offset, hoffset, rfl⟩ := List.mem_range'.mp hnumber
    simp only [List.length_append, List.length_map] at hoffset ⊢
    omega
  · exact h

/-- A sound pool with nodes in it. -/
structure Populated (pool : Pool) : Prop extends Sound pool where
  nonempty : pool.ring ≠ []

theorem populated_of_make {kind : PoolKind} {urls : List Url} (h : make kind urls = .ok pool) :
    pool.Populated := by
  refine ⟨sound_of_make h, ?_⟩
  unfold make at h
  split_ifs at h with hnone
  cases h
  simpa using hnone

theorem Populated.changeHealth (h : pool.Populated) : (pool.changeHealth number change).Populated :=
  ⟨h.toSound.changeHealth, h.nonempty⟩

theorem Populated.reseed (h : pool.Populated) (nodes : List Node) :
    (pool.reseed nodes).1.Populated := by
  refine ⟨h.toSound.reseed nodes, ?_⟩
  unfold Pool.reseed
  split_ifs with htakes
  · simp only [Bool.and_eq_true, Bool.not_eq_true', List.isEmpty_eq_false_iff] at htakes
    simpa using htakes.2
  · exact h.nonempty

/-- Every number of the ring stands for a node. -/
theorem Sound.exists_node (h : pool.Sound) (hnumber : number ∈ pool.ring) :
    ∃ node, pool.node? number = some node :=
  ⟨_, List.getElem?_eq_getElem (h.listed number hnumber)⟩

/-! ### Seeking -/

/-- A node that a walk passes over: it is dead and its time is not over. -/
def Resting (pool : Pool) (always : Bool) (now number : Nat) : Prop :=
  ∀ node, pool.node? number = some node → always = false ∧ node.health.isDue now = false

variable {always revived : Bool} {now : Nat} {ring rest : List Nat}

/-- There is nothing to take where there is no node. -/
theorem resting_of_no_node (h : pool.node? number = none) : pool.Resting always now number := by
  intro node hnode
  rw [h] at hnode
  cases hnode

theorem resting_of_not_due {node : Node} (hnode : pool.node? number = some node)
    (halive : ¬ (always || node.health.alive) = true) (hdue : ¬ node.health.isDue now = true) :
    pool.Resting always now number := by
  intro other hother
  rw [hnode, Option.some.injEq] at hother
  subst hother
  simp only [Bool.or_eq_true, not_or, Bool.not_eq_true] at halive hdue
  exact ⟨halive.1, hdue⟩

/-- What a walk finds that seeks its next node: all nodes before it are passed over, and it is
revived if it was dead. -/
def Finds (pool : Pool) (always : Bool) (now : Nat) (ring : List Nat) (number : Nat)
    (revived : Bool) (rest : List Nat) : Prop :=
  ∃ skipped node, ring = skipped ++ number :: rest ∧
    (∀ other ∈ skipped, pool.Resting always now other) ∧ pool.node? number = some node ∧
    (always || node.health.alive) = !revived ∧ (revived = true → node.health.isDue now = true)

theorem Finds.cons {first : Nat} (h : pool.Finds always now ring number revived rest)
    (hfirst : pool.Resting always now first) :
    pool.Finds always now (first :: ring) number revived rest := by
  obtain ⟨skipped, node, hring, hskipped, hnode⟩ := h
  refine ⟨first :: skipped, node, by rw [hring, List.cons_append], ?_, hnode⟩
  exact List.forall_mem_cons.mpr ⟨hfirst, hskipped⟩

theorem finds_of_seek_eq_some (h : pool.seek always now ring = some (number, revived, rest)) :
    pool.Finds always now ring number revived rest := by
  induction ring with
  | nil => simp [seek] at h
  | cons first others ih =>
    simp only [seek] at h
    cases hnode : pool.node? first with
    | none =>
      rw [hnode] at h
      exact (ih h).cons (resting_of_no_node hnode)
    | some node =>
      rw [hnode] at h
      simp only at h
      split_ifs at h with halive hdue
      · simp only [Option.some.injEq, Prod.mk.injEq] at h
        obtain ⟨rfl, rfl, rfl⟩ := h
        exact ⟨[], node, rfl, by simp, hnode, by simpa using halive, by simp⟩
      · simp only [Option.some.injEq, Prod.mk.injEq] at h
        obtain ⟨rfl, rfl, rfl⟩ := h
        exact ⟨[], node, rfl, by simp, hnode, by simpa using halive, fun _ ↦ hdue⟩
      · exact (ih h).cons (resting_of_not_due hnode halive hdue)

/-- Where none is found, all are passed over. -/
theorem resting_of_seek_eq_none (h : pool.seek always now ring = none) :
    ∀ other ∈ ring, pool.Resting always now other := by
  induction ring with
  | nil => simp
  | cons first others ih =>
    simp only [seek] at h
    cases hnode : pool.node? first with
    | none =>
      rw [hnode] at h
      exact List.forall_mem_cons.mpr ⟨resting_of_no_node hnode, ih h⟩
    | some node =>
      rw [hnode] at h
      simp only at h
      split_ifs at h with halive hdue
      exact List.forall_mem_cons.mpr ⟨resting_of_not_due hnode halive hdue, ih h⟩

theorem longestDead_mem (h : pool.longestDead ring = some number) : number ∈ ring := by
  induction ring generalizing number with
  | nil => simp [longestDead] at h
  | cons first others ih =>
    simp only [longestDead] at h
    cases hothers : pool.longestDead others with
    | none =>
      rw [hothers] at h
      simp_all
    | some other =>
      rw [hothers] at h
      simp only at h
      split_ifs at h <;> cases h
      · exact List.mem_cons_of_mem _ (ih hothers)
      · exact List.mem_cons_self

theorem longestDead_eq_none (h : pool.longestDead ring = none) : ring = [] := by
  cases ring with
  | nil => rfl
  | cons first others =>
    simp only [longestDead] at h
    split at h
    · cases h
    · split_ifs at h

end Pool

/-! ### New walks -/

/-- A walk that has not begun has all nodes before it. -/
def Walk.Fresh (w : Walk) : Prop := w.begun = false → w.rest.Perm w.all

theorem Walk.fresh_of_begun {w : Walk} (h : w.begun = true) : w.Fresh := by
  intro hbegun
  rw [h] at hbegun
  cases hbegun

theorem rotateLeft_perm {α : Type} (items : List α) (count : Nat) :
    (items.rotateLeft count).Perm items := by
  unfold List.rotateLeft
  dsimp only
  split_ifs
  · exact .refl _
  · exact List.perm_append_comm.trans (.of_eq (List.take_append_drop ..))

namespace Pool

variable (pool : Pool)

@[simp] theorem begun_walk : pool.walk.1.begun = false := by
  unfold walk
  cases pool.kind <;> rfl

@[simp] theorem all_walk : pool.walk.1.all = pool.ring := by
  unfold walk
  cases pool.kind <;> rfl

/-- A new walk has the nodes of the ring before it, from some place on. -/
theorem rest_walk_perm : pool.walk.1.rest.Perm pool.ring := by
  unfold walk
  cases pool.kind with
  | single | sticky => exact .refl _
  | fixed | sniffing => exact rotateLeft_perm ..

theorem Sound.nodup_walk {pool : Pool} (h : pool.Sound) : pool.walk.1.rest.Nodup :=
  pool.rest_walk_perm.nodup_iff.mpr h.nodup

theorem fresh_walk : pool.walk.1.Fresh := by
  intro _
  rw [all_walk]
  exact pool.rest_walk_perm

@[simp] theorem kind_walk : pool.walk.2.kind = pool.kind := by
  unfold walk
  cases hkind : pool.kind <;> simp [hkind]

@[simp] theorem ring_walk : pool.walk.2.ring = pool.ring := by
  unfold walk
  cases pool.kind <;> rfl

@[simp] theorem register_walk : pool.walk.2.register = pool.register := by
  unfold walk
  cases pool.kind <;> rfl

@[simp] theorem node?_walk (number : Nat) : pool.walk.2.node? number = pool.node? number := by
  simp only [node?, register_walk]

theorem Sound.walk {pool : Pool} (h : pool.Sound) : pool.walk.2.Sound :=
  ⟨by simpa using h.nodup, by simpa using h.listed⟩

theorem Populated.walk {pool : Pool} (h : pool.Populated) : pool.walk.2.Populated :=
  ⟨h.toSound.walk, by simpa using h.nonempty⟩

end Pool

/-! ### The next node -/

/-- What a walk can do when it is asked for its next node. -/
inductive Walk.Onward (w : Walk) (pool : Pool) (now : Nat) : Stride → Prop
  | taken {skipped rest : List Nat} {number : Nat} {node : Node}
      (hrest : w.rest = skipped ++ number :: rest)
      (hskipped : ∀ other ∈ skipped, pool.Resting w.always now other)
      (hnode : pool.node? number = some node) (halive : (w.always || node.health.alive) = true) :
      w.Onward pool now ⟨some number, { w with rest := rest, begun := true }, pool, []⟩
  | revived {skipped rest : List Nat} {number : Nat} {node : Node}
      (hrest : w.rest = skipped ++ number :: rest)
      (hskipped : ∀ other ∈ skipped, pool.Resting w.always now other)
      (hnode : pool.node? number = some node) (hdead : (w.always || node.health.alive) = false)
      (hdue : node.health.isDue now = true) :
      w.Onward pool now ⟨some number, { w with rest := rest, begun := true },
        pool.changeHealth number Health.revive, [pool.revival number]⟩
  | spent (hresting : ∀ other ∈ w.rest, pool.Resting w.always now other) (hbegun : w.begun = true) :
      w.Onward pool now ⟨none, { w with rest := [], begun := true }, pool, []⟩
  | nobody (hbegun : w.begun = false) (hall : w.all = []) :
      w.Onward pool now ⟨none, { w with rest := [] }, pool, []⟩
  | longestDead {number : Nat} (hresting : ∀ other ∈ w.rest, pool.Resting w.always now other)
      (hbegun : w.begun = false) (hlongest : pool.longestDead w.all = some number) :
      w.Onward pool now ⟨some number, { w with rest := [], begun := true },
        pool.changeHealth number Health.revive, [{ event := .allNodesDead }, pool.revival number]⟩

theorem Walk.onward_next (w : Walk) (pool : Pool) (now : Nat) :
    w.Onward pool now (w.next pool now) := by
  unfold Walk.next
  cases hseek : pool.seek w.always now w.rest with
  | some found =>
    obtain ⟨number, revived, rest⟩ := found
    obtain ⟨skipped, node, hrest, hskipped, hnode, hrevived, hdue⟩ :=
      Pool.finds_of_seek_eq_some hseek
    cases revived with
    | false => exact .taken hrest hskipped hnode (by simpa using hrevived)
    | true => exact .revived hrest hskipped hnode (by simpa using hrevived) (hdue rfl)
  | none =>
    have hresting := Pool.resting_of_seek_eq_none hseek
    by_cases hbegun : w.begun = true
    · simpa [hbegun] using Walk.Onward.spent hresting hbegun
    · rw [Bool.not_eq_true] at hbegun
      simp only [hbegun]
      cases hlongest : pool.longestDead w.all with
      | none => simpa [hbegun] using Walk.Onward.nobody hbegun (Pool.longestDead_eq_none hlongest)
      | some number => exact .longestDead hresting hbegun hlongest

namespace Walk.Onward

variable {w : Walk} {pool : Pool} {now : Nat} {onward : Stride}

/-- A walk spares the health of all nodes. -/
theorem spares (h : w.Onward pool now onward) (number : Nat) :
    pool.Spares onward.pool number := by
  cases h with
  | taken | spent | nobody => exact Pool.spares_of_eq rfl
  | revived | longestDead => exact Pool.spares_revive

theorem kind_eq (h : w.Onward pool now onward) : onward.pool.kind = pool.kind := by
  cases h <;> rfl

theorem length_register_eq (h : w.Onward pool now onward) :
    onward.pool.register.length = pool.register.length := by
  cases h <;> simp

/-- The nodes that a walk has not before it stay as they are. -/
theorem frame (h : w.Onward pool now onward) (hfresh : w.Fresh) {number : Nat}
    (hnumber : number ∉ w.rest) : onward.pool.node? number = pool.node? number := by
  cases h with
  | taken | spent | nobody => rfl
  | @revived _ _ found _ hrest =>
    refine Pool.node?_changeHealth_of_ne fun hfound ↦ hnumber ?_
    rw [hrest, ← hfound]
    exact List.mem_append_right _ List.mem_cons_self
  | longestDead _ hbegun hlongest =>
    refine Pool.node?_changeHealth_of_ne fun hfound ↦ hnumber ?_
    rw [(hfresh hbegun).mem_iff, ← hfound]
    exact Pool.longestDead_mem hlongest

/-- A walk comes to a node that it had before it, and leaves it behind. -/
theorem leaves (h : w.Onward pool now onward) (hfresh : w.Fresh) (hnodup : w.rest.Nodup)
    {number : Nat} (hnumber : onward.node = some number) :
    number ∈ w.rest ∧ number ∉ onward.walk.rest ∧ onward.walk.rest <:+ w.rest := by
  cases h with
  | taken hrest | revived hrest =>
    rw [Option.some.injEq] at hnumber
    subst hnumber
    rw [hrest] at hnodup ⊢
    have hcons := (List.nodup_append.mp hnodup).2.1
    refine ⟨List.mem_append_right _ List.mem_cons_self, (List.nodup_cons.mp hcons).1, ?_⟩
    exact (List.suffix_cons ..).trans (List.suffix_append ..)
  | spent | nobody => cases hnumber
  | longestDead _ hbegun hlongest =>
    rw [Option.some.injEq] at hnumber
    subst hnumber
    refine ⟨?_, List.not_mem_nil, List.nil_suffix⟩
    rw [(hfresh hbegun).mem_iff]
    exact Pool.longestDead_mem hlongest

/-- A walk that has not begun comes to a node, if there are any. -/
theorem exists_node (h : w.Onward pool now onward) (hbegun : w.begun = false)
    (hall : w.all = pool.ring) (hpool : pool.Populated) :
    ∃ number node, onward.node = some number ∧ pool.node? number = some node := by
  cases h with
  | taken _ _ hnode | revived _ _ hnode => exact ⟨_, _, rfl, hnode⟩
  | spent _ hspent =>
    rw [hbegun] at hspent
    cases hspent
  | nobody _ hnone => exact absurd (hall.symm.trans hnone) hpool.nonempty
  | longestDead _ _ hlongest =>
    have hmem := Pool.longestDead_mem hlongest
    rw [hall] at hmem
    obtain ⟨node, hnode⟩ := hpool.toSound.exists_node hmem
    exact ⟨_, node, rfl, hnode⟩

end Walk.Onward

end SearchClient
