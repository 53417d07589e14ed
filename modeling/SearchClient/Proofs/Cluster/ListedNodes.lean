import SearchClient.Proofs.Cluster.PingFirst
import SearchClient.Proofs.Json.Records

/-!
# Nodes that an answer lists

An answer to a sniff has entries, in the order of their ids, and those that can be used give nodes.
`readNodes_eq_ok` says which answers list nodes at all, and `forall₂_listed` which nodes those are:
one for each entry that can be used, in the same order.
-/

set_option autoImplicit false
set_option relaxedAutoImplicit false

namespace SearchClient.Sniff

/-- The entries of an answer. -/
def entries (d : Document) : List (String × Document) :=
  ((d.get? "nodes").map Document.members).getD []

/-- The address that an entry publishes. -/
def address? (d : Document) : Option String :=
  (d.get? "http").bind fun http ↦ (http.get? "publish_address").bind Document.string?

/-- Whether an entry can be used: its address gives a locator, HTTP is not turned off, and it is not
there to manage the cluster only if such nodes are passed over. -/
def isUsable [Url.Domain.Spelling] (scheme : String) (skipManagerOnly : Bool) (d : Document) :
    Bool :=
  ((address? d).bind (publishUrl? · scheme)).isSome &&
    ((roles d).http && !(skipManagerOnly && (roles d).managerOnly))

/-- The entries of an answer that can be used. -/
def usableEntries [Url.Domain.Spelling] (scheme : String) (skipManagerOnly : Bool) (d : Document) :
    List (String × Document) :=
  (entries d).filter fun entry ↦ isUsable scheme skipManagerOnly entry.2

/-- A node with what an entry tells about it, and nothing known about its health. -/
structure Describes [Url.Domain.Spelling] (scheme : String) (entry : String × Document)
    (node : Node) : Prop where
  url : (address? entry.2).bind (publishUrl? · scheme) = some node.url
  id : node.id = some entry.1
  name : node.name = (entry.2.get? "name").bind Document.string?
  roles : node.roles = roles entry.2
  health : node.health = {}

variable {scheme : String} {skipManagerOnly : Bool} {body : Text.Bytes} {asked : Url}
  {found : List Node} {d : Document}

/-! ### Entries in order -/

variable [Url.Domain.Spelling]

/-- An entry gives a node if its address gives a locator and its roles allow it. -/
theorem node?_eq (id : String) (d : Document) : node? scheme skipManagerOnly id d =
    ((address? d).bind (publishUrl? · scheme)).bind fun url ↦
      if (roles d).http && !(skipManagerOnly && (roles d).managerOnly) then
        some { url := url, id := some id, name := (d.get? "name").bind Document.string?
               roles := roles d }
      else none := by
  simp only [node?, address?, Option.bind_eq_bind, Option.bind_assoc]

theorem node?_isSome (id : String) (d : Document) :
    (node? scheme skipManagerOnly id d).isSome = isUsable scheme skipManagerOnly d := by
  rw [node?_eq, isUsable]
  cases (address? d).bind (publishUrl? · scheme) with
  | none => rfl
  | some url =>
    rw [Option.bind_some, Option.isSome_some, Bool.true_and]
    split
    · rename_i husable
      rw [husable]
      rfl
    · rename_i husable
      rw [Bool.not_eq_true] at husable
      rw [husable]
      rfl

/-- The node that an entry gives has what the entry tells. -/
theorem describes_of_node? {id : String} {d : Document} {node : Node}
    (h : node? scheme skipManagerOnly id d = some node) : Describes scheme (id, d) node := by
  rw [node?_eq] at h
  obtain ⟨url, hurl, h⟩ := Option.bind_eq_some_iff.mp h
  split at h
  · cases h
    exact ⟨hurl, rfl, rfl, rfl, rfl⟩
  · cases h

/-- The entries that can be used give one node each. -/
theorem forall₂_filterMap (entries : List (String × Document)) :
    List.Forall₂ (Describes scheme)
      (entries.filter fun entry ↦ isUsable scheme skipManagerOnly entry.2)
      (entries.filterMap fun entry ↦ node? scheme skipManagerOnly entry.1 entry.2) := by
  induction entries with
  | nil => exact .nil
  | cons entry entries ih =>
    have husable : _ = isUsable scheme skipManagerOnly entry.2 := node?_isSome entry.1 entry.2
    cases hnode : node? scheme skipManagerOnly entry.1 entry.2 with
    | none =>
      rw [hnode] at husable
      rw [List.filter_cons_of_neg (by simp [← husable]), List.filterMap_cons, hnode]
      exact ih
    | some node =>
      rw [hnode] at husable
      rw [List.filter_cons_of_pos (by simp [← husable]), List.filterMap_cons, hnode]
      exact .cons (describes_of_node? hnode) ih

/-- The nodes that an answer lists. -/
def listed (scheme : String) (skipManagerOnly : Bool) (d : Document) : List Node :=
  (entries d).filterMap fun entry ↦ node? scheme skipManagerOnly entry.1 entry.2

theorem forall₂_listed (d : Document) : List.Forall₂ (Describes scheme)
    (usableEntries scheme skipManagerOnly d) (listed scheme skipManagerOnly d) :=
  forall₂_filterMap (entries d)

/-- There are nodes in an answer if some of its entries can be used. -/
theorem listed_eq_nil_iff : listed scheme skipManagerOnly d = [] ↔
    usableEntries scheme skipManagerOnly d = [] := by
  have hall : List.Forall₂ (Describes scheme) (usableEntries scheme skipManagerOnly d)
    (listed scheme skipManagerOnly d) := forall₂_listed d
  rw [← List.length_eq_zero_iff, ← hall.length_eq, List.length_eq_zero_iff]

/-- An answer tells of nodes if it can be read and some of its entries can be used. -/
theorem readNodes_eq_ok : readNodes body asked skipManagerOnly = .ok found ↔
    ∃ d, nodesShape.read body = .ok d ∧ found = listed asked.scheme skipManagerOnly d ∧
      usableEntries asked.scheme skipManagerOnly d ≠ [] := by
  unfold readNodes
  cases nodesShape.read body with
  | error fault => simp
  | ok d =>
    simp only [Except.ok.injEq, exists_eq_left']
    rw [ne_eq, ← listed_eq_nil_iff]
    split
    · rename_i hnone
      have hlisted : listed asked.scheme skipManagerOnly d = [] := hnone
      simp [hlisted]
    · rename_i hsome
      have hlisted : listed asked.scheme skipManagerOnly d ≠ [] := hsome
      rw [Except.ok.injEq, eq_comm, and_iff_left hlisted]
      rfl

theorem readNodes_ne_nil (h : readNodes body asked skipManagerOnly = .ok []) : False := by
  obtain ⟨d, -, hlisted, husable⟩ := readNodes_eq_ok.mp h
  exact husable (listed_eq_nil_iff.mp hlisted.symm)

end SearchClient.Sniff
