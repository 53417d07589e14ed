import SearchClient.Proofs.Cluster.HandingOut
import SearchClient.Proofs.Cluster.SeedBudget
import Mathlib.Algebra.Group.Nat.Defs
import Mathlib.Data.List.Rotate

/-!
# Fair turns

`Pool.views` are the walks that begin over a pool while it is handled. While its ring stays, each of
them begins one place after the one before it, unless the pool always begins with its first node.
So among as many walks as there are nodes, one after the other, each node has each place once.

What a walk yields is said by what it hands out (`Walk.Yields`): over nodes that are alive whenever
it is asked, it hands out these nodes in this order, and nothing after them.
-/

set_option autoImplicit false
set_option relaxedAutoImplicit false

namespace SearchClient

/-! ### Rotations -/

theorem rotateLeft_eq_rotate {α : Type} (items : List α) (count : Nat) :
    items.rotateLeft count = items.rotate count := by
  rw [List.rotate_eq_drop_append_take_mod]
  unfold List.rotateLeft
  dsimp only
  split_ifs with hlength
  · match items, hlength with
    | [], _ => simp
    | [item], _ => simp [Nat.mod_one]
  · rfl

/-- As many rotations of a list as it has items, one after the other, have at one place the items of
the list, rotated. -/
theorem map_getElem?_rotations {α : Type} (items : List α) (first : Nat) {place : Nat}
    (hplace : place < items.length) :
    (List.range items.length).map (fun i ↦ (items.rotate (first + i))[place]?) =
      (items.rotate (first + place)).map some := by
  refine List.ext_getElem (by simp) fun i hi hi' ↦ ?_
  have hlt : i < items.length := by simpa using hi
  have hturned : (items.rotate (first + place))[i]? =
      items[(i + (first + place)) % items.length]? := List.getElem?_rotate hlt
  rw [List.getElem_map, List.getElem_range, List.getElem?_rotate hplace, List.getElem_map,
    ← List.getElem?_eq_getElem, hturned]
  congr 2
  omega

/-- Where each of some lists is a list of items rotated by its number, and as many of them are taken
one after the other as there are items, these have all items at each place. -/
theorem perm_of_rotations {α : Type} {items : List α} {orders : List (List α)} {first place : Nat}
    (hturn : ∀ k order, orders[k]? = some order → order = items.rotate (k % items.length))
    (hwithin : first + items.length ≤ orders.length) (hplace : place < items.length) :
    (((orders.drop first).take items.length).map (·[place]?)).Perm (items.map some) := by
  have hblock : (orders.drop first).take items.length =
      (List.range items.length).map fun i ↦ items.rotate (first + i) := by
    refine List.ext_getElem (by simp; omega) fun i hi hi' ↦ ?_
    have hlt : i < items.length := by simpa using hi'
    rw [List.getElem_take, List.getElem_drop, List.getElem_map, List.getElem_range,
      hturn (first + i) _ (List.getElem?_eq_getElem (by omega)), List.rotate_mod]
  have hcolumn : ((orders.drop first).take items.length).map (·[place]?) =
      (items.rotate (first + place)).map some := by
    rw [hblock, List.map_map]
    exact map_getElem?_rotations items first hplace
  rw [hcolumn]
  exact (List.rotate_perm ..).map some

/-! ### Walks over nodes that are alive -/

namespace Walk

variable {w : Walk} {pool : Pool}

/-- A walk hands out nodes in this order, one for each question as long as there are any, if all of
them are alive whenever it is asked. -/
def Yields (w : Walk) (order : List Nat) : Prop :=
  ∀ pool questions, (∀ a ∈ w.answers pool questions, a.pool.AllAlive order) →
    handedOut (w.answers pool questions) = order.take questions.length

theorem Onward.fresh {now : Nat} {stride : Stride} (h : w.Onward pool now stride) :
    stride.walk.Fresh := by
  cases h with
  | taken | revived | spent | longestDead => exact fresh_of_begun rfl
  | nobody _ hall => exact fun _ ↦ .of_eq hall.symm

theorem handedOut_answers_of_alive (hfresh : w.Fresh) (questions : List Question)
    (halive : ∀ a ∈ w.answers pool questions, a.pool.AllAlive w.rest) :
    handedOut (w.answers pool questions) = w.rest.take questions.length := by
  induction questions generalizing w pool with
  | nil => simp [answers, handedOut]
  | cons question questions ih =>
    simp only [answers] at halive ⊢
    have honward := w.onward_next (pool.handled question.handlings) question.now
    obtain ⟨hfirst, hlater⟩ := List.forall_mem_cons.mp halive
    obtain ⟨hnode, hrest, -, -⟩ := honward.of_alive hfresh hfirst
    have hleft := ih honward.fresh fun a ha number hnumber ↦
      hlater a ha number (List.mem_of_mem_tail (hrest ▸ hnumber))
    rw [hrest] at hleft
    cases hall : w.rest with
    | nil =>
      rw [hall] at hnode hleft
      rw [handedOut_cons_of_none hnode, hleft]
      simp
    | cons number rest =>
      rw [hall] at hnode hleft
      rw [handedOut_cons hnode, hleft]
      rfl

theorem yields_rest (hfresh : w.Fresh) : w.Yields w.rest :=
  fun _ questions halive ↦ handedOut_answers_of_alive hfresh questions halive

end Walk

namespace Pool

variable {pool : Pool} {handling : Handling} {handlings : List Handling} {w : Walk} {k : Nat}

/-! ### Handlings that leave the ring -/

/-- What the order of the next walks depends on is the same. -/
structure SameTurns (pool pool' : Pool) : Prop where
  kind : pool'.kind = pool.kind
  ring : pool'.ring = pool.ring
  turns : pool'.turns = pool.turns

theorem SameTurns.start_eq {pool' : Pool} (h : pool.SameTurns pool') :
    pool'.start = pool.start := by
  simp only [start, size, h.kind, h.ring, h.turns]

/-- No new nodes take the place of those of a pool of this kind. -/
def KeepsRing (kind : PoolKind) (handling : Handling) : Prop :=
  ∀ nodes, handling = .reseed nodes → kind = .sniffing → nodes = []

theorem sameTurns_apply (hkeeps : KeepsRing pool.kind handling) (hview : handling ≠ .view) :
    pool.SameTurns (handling.apply pool) := by
  cases handling with
  | reseed nodes =>
    have hnot : ¬ (pool.kind.takesNewNodes = true ∧ nodes ≠ []) := by
      rintro ⟨htakes, hnodes⟩
      exact hnodes (hkeeps nodes rfl (eq_of_beq htakes))
    rw [Handling.apply, reseed_of_not_takes hnot]
    exact ⟨rfl, rfl, rfl⟩
  | mark => exact ⟨rfl, rfl, rfl⟩
  | view => exact absurd rfl hview
  | stride w now =>
    have honward := w.onward_next pool now
    refine ⟨honward.kind_eq, honward.ring_eq, ?_⟩
    simp only [Handling.apply]
    generalize w.next pool now = stride at honward ⊢
    cases honward <;> rfl

/-! ### Walks one after the other -/

/-- The walks that begin while a pool is handled, in order. -/
def views (pool : Pool) : List Handling → List Walk
  | [] => []
  | handling :: handlings =>
    match handling with
    | .view => pool.walk.1 :: pool.walk.2.views handlings
    | _ => (handling.apply pool).views handlings

theorem views_cons_of_ne_view (hview : handling ≠ .view) :
    pool.views (handling :: handlings) = (handling.apply pool).views handlings := by
  cases handling with
  | view => exact absurd rfl hview
  | reseed | mark | stride => rfl

/-- The pool when some more walks have begun over it. -/
def later (pool : Pool) (walks : Nat) : Pool :=
  { pool with turns := (pool.turns + walks) % (greatestUnsigned + 1) }

theorem later_zero (hturns : pool.turns ≤ greatestUnsigned) : pool.later 0 = pool := by
  simp only [later, Nat.add_zero, Nat.mod_eq_of_lt (Nat.lt_succ_of_le hturns)]

/-- A pool after a walk, some walks later, begins as it does with this walk among them. -/
theorem start_later_walk (pool : Pool) (k : Nat) :
    (pool.walk.2.later k).start = (pool.later (k + 1)).start := by
  unfold walk start later
  cases hkind : pool.kind with
  | single | sticky => simp [hkind]
  | fixed | sniffing => simp only [size, Nat.mod_add_mod, Nat.add_assoc, Nat.add_comm 1 k]

theorem turns_walk_le (hturns : pool.turns ≤ greatestUnsigned) :
    pool.walk.2.turns ≤ greatestUnsigned := by
  unfold walk
  cases pool.kind with
  | single | sticky => exact hturns
  | fixed | sniffing => exact Nat.le_of_lt_succ (Nat.mod_lt _ (Nat.succ_pos _))

/-- Of the walks that begin while the ring stays, each begins where the turn is by then. -/
theorem rest_of_views (hkeeps : ∀ handling ∈ handlings, KeepsRing pool.kind handling)
    (hturns : pool.turns ≤ greatestUnsigned) (hw : (pool.views handlings)[k]? = some w) :
    w.Fresh ∧ w.rest = pool.ring.rotate (pool.later k).start := by
  -- A walk that begins takes one turn of those that are still to come, anything else takes none.
  induction handlings generalizing pool k with
  | nil => simp [views] at hw
  | cons handling handlings ih =>
    obtain ⟨hfirst, hothers⟩ := List.forall_mem_cons.mp hkeeps
    by_cases hview : handling = .view
    · subst hview
      simp only [views] at hw
      cases k with
      | zero =>
        cases hw
        rw [later_zero hturns, ← rotateLeft_eq_rotate]
        exact ⟨pool.fresh_walk, pool.rest_walk⟩
      | succ k =>
        rw [List.getElem?_cons_succ] at hw
        have hafter : ∀ handling ∈ handlings, KeepsRing pool.walk.2.kind handling := by
          rwa [kind_walk]
        have hlater := ih hafter (turns_walk_le hturns) hw
        rwa [ring_walk, start_later_walk] at hlater
    · rw [views_cons_of_ne_view hview] at hw
      have hsame := sameTurns_apply hfirst hview
      have hafter : ∀ next ∈ handlings, KeepsRing (handling.apply pool).kind next := by
        rwa [hsame.kind]
      have hlater := ih hafter (hsame.turns ▸ hturns) hw
      have hstart : ((handling.apply pool).later k).start = (pool.later k).start :=
        SameTurns.start_eq ⟨hsame.kind, hsame.ring, by simp only [later, hsame.turns]⟩
      rwa [hsame.ring, hstart] at hlater

/-! ### Pools whose ring is new -/

/-- The ring of a pool has just been made, with the pool or of new nodes. -/
def JustMade (pool : Pool) : Prop :=
  (∃ kind urls, make kind urls = .ok pool) ∨
    ∃ (before : Pool) (nodes : List Node), before.Sound ∧ before.reseed nodes = (pool, true)

theorem JustMade.sound (h : pool.JustMade) : pool.Sound := by
  obtain ⟨kind, urls, hmake⟩ | ⟨before, nodes, hbefore, hreseed⟩ := h
  · exact sound_of_make hmake
  · have hafter := hbefore.reseed nodes
    rwa [hreseed] at hafter

theorem JustMade.turns_eq (h : pool.JustMade) : pool.turns = 0 := by
  obtain ⟨kind, urls, hmake⟩ | ⟨before, nodes, -, hreseed⟩ := h
  · exact (untouched_of_make hmake).turns_eq
  · unfold reseed at hreseed
    split_ifs at hreseed <;> cases hreseed
    rfl

/-- As many walks later as there are places before it, a new ring begins at a place. -/
theorem JustMade.start_later (h : pool.JustMade)
    (hkind : pool.kind = .fixed ∨ pool.kind = .sniffing) (hcount : k < 2 ^ 64) :
    (pool.later k).start = k % pool.size := by
  have hbound : k % (greatestUnsigned + 1) = k := Nat.mod_eq_of_lt hcount
  unfold start later
  rw [h.turns_eq, Nat.zero_add, hbound]
  obtain hkind | hkind := hkind <;> rw [hkind] <;> rfl

/-- While the ring stays that a pool was made with, or that was made of new nodes, each walk over it
hands out each of its nodes once if they are alive. Over a sticky pool the order is that of the
ring. Over a fixed or a sniffing pool it is that of the ring, rotated by the number of the walk, as
long as the walks can be counted; so among any walks one after the other, as many as there are
nodes, each node has each place once. -/
theorem views_take_turns (hmade : pool.JustMade) (handlings : List Handling)
    (hkeeps : ∀ handling ∈ handlings, KeepsRing pool.kind handling) :
    ∃ orders, List.Forall₂ Walk.Yields (pool.views handlings) orders ∧
      (∀ order ∈ orders, order.Nodup ∧ order.Perm pool.ring) ∧
      (pool.kind = .sticky → ∀ order ∈ orders, order = pool.ring) ∧
      (pool.kind = .fixed ∨ pool.kind = .sniffing → orders.length ≤ 2 ^ 64 →
        (∀ k order, orders[k]? = some order → order = pool.ring.rotate (k % pool.size)) ∧
        ∀ first place, first + pool.size ≤ orders.length → place < pool.size →
          (((orders.drop first).take pool.size).map (·[place]?)).Perm (pool.ring.map some)) := by
  have hturns : pool.turns ≤ greatestUnsigned := hmade.turns_eq ▸ Nat.zero_le _
  have hrest {k : Nat} {order : List Nat}
      (horder : ((pool.views handlings).map Walk.rest)[k]? = some order) :
      order = pool.ring.rotate (pool.later k).start := by
    rw [List.getElem?_map, Option.map_eq_some_iff] at horder
    obtain ⟨w, hw, rfl⟩ := horder
    exact (rest_of_views hkeeps hturns hw).2
  refine ⟨(pool.views handlings).map Walk.rest, ?_, fun order horder ↦ ?_,
    fun hsticky order horder ↦ ?_, fun hkind hcount ↦ ?_⟩
  · rw [List.forall₂_map_right_iff, List.forall₂_same]
    intro w hw
    obtain ⟨k, hk⟩ := List.getElem?_of_mem hw
    exact Walk.yields_rest (rest_of_views hkeeps hturns hk).1
  · obtain ⟨k, hk⟩ := List.getElem?_of_mem horder
    have hperm : order.Perm pool.ring := hrest hk ▸ List.rotate_perm ..
    exact ⟨hperm.nodup_iff.mpr hmade.sound.nodup, hperm⟩
  · obtain ⟨k, hk⟩ := List.getElem?_of_mem horder
    have hstart : (pool.later k).start = 0 := by
      unfold start later
      rw [hsticky]
    rw [hrest hk, hstart, List.rotate_zero]
  · have hturn (k : Nat) (order : List Nat)
        (hk : ((pool.views handlings).map Walk.rest)[k]? = some order) :
        order = pool.ring.rotate (k % pool.size) := by
      obtain ⟨hlt, -⟩ := List.getElem?_eq_some_iff.mp hk
      rw [hrest hk, hmade.start_later hkind (Nat.lt_of_lt_of_le hlt hcount)]
    exact ⟨hturn, fun first place hwithin hplace ↦ perm_of_rotations hturn hwithin hplace⟩

open Walk (trio)

/-- Four walks begin over three nodes, and something else happens between them. -/
def fourWalks : List Handling :=
  [.view, .view, .mark 1 fun _ ↦ .recovered, .view, .reseed [{ url := Send.nodeAt "d" }], .view]

/-- The fourth walk over three nodes begins with the first again, and the nodes that the last three
begin with are all nodes. -/
theorem views_take_turns_trio :
    trio.JustMade ∧ (∀ handling ∈ fourWalks, KeepsRing trio.kind handling) ∧
    (trio.views fourWalks).map (fun w ↦ Walk.handedOut (w.answers trio [{}, {}, {}, {}])) =
      [[0, 1, 2], [1, 2, 0], [2, 0, 1], [0, 1, 2]] ∧
    ∃ orders, List.Forall₂ Walk.Yields (trio.views fourWalks) orders ∧
      (∀ order, orders[3]? = some order → order = [0, 1, 2]) ∧
      (((orders.drop 1).take 3).map (·[0]?)).Perm [some 0, some 1, some 2] := by
  have hmade : trio.JustMade :=
    .inl ⟨.fixed, [Send.nodeAt "a", Send.nodeAt "b", Send.nodeAt "c"], rfl⟩
  have hkeeps : ∀ handling ∈ fourWalks, KeepsRing trio.kind handling :=
    fun _ _ _ _ hsniffing ↦ nomatch hsniffing
  obtain ⟨orders, hyields, -, -, hturns⟩ := views_take_turns hmade fourWalks hkeeps
  have hcount : orders.length = 4 := hyields.length_eq.symm
  obtain ⟨horder, hplaces⟩ := hturns (.inl rfl) (by omega)
  exact ⟨hmade, hkeeps, by decide, orders, hyields, horder 3,
    hplaces 1 0 (by rw [hcount]; decide) (by decide)⟩

end Pool

end SearchClient
