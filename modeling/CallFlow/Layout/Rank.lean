/-!
# Ranks

An automatic layout puts every node on a rank. The first node is on rank
`0`, and whatever can be reached from it is as many ranks further as it
takes edges to get there. Where nodes are left over, the first of them
starts a new search, on the rank behind all those in use, and only nodes
without a rank receive one; and so on, until no node is left.

Nodes are known by their ids, and edges by the ids of their ends. How the
distances from a node are found is left open, since it is left to networkx:
`assign` is handed a `Search`, and `distances` is one, layer by layer.
-/

namespace CallFlow.Rank

/-- The ids that edges lead to from an id. -/
def successors (edges : List (String × String)) (id : String) : List String :=
  (edges.filter (fun e => e.1 = id)).map Prod.snd

/-- The ids one edge away from some ids, each once, without those already
found. -/
def nextLayer (edges : List (String × String)) (found : List (String × Nat))
    (layer : List String) : List String :=
  ((layer.flatMap (successors edges)).eraseDups).filter (fun id => (found.lookup id).isNone)

/-- Goes on from a layer at a distance, layer by layer, until nothing new
is found. Each layer finds at least one id, so as many layers as there are
ids suffice. -/
def spread (edges : List (String × String)) : Nat → Nat → List String → List (String × Nat) →
    List (String × Nat)
  | 0, _, _, found => found
  | fuel + 1, distance, layer, found =>
    let fresh := nextLayer edges found layer
    if fresh.isEmpty then found
    else spread edges fuel (distance + 1) fresh (found ++ fresh.map (fun id => (id, distance + 1)))

/-- The ids that can be reached from a root, with the least number of
edges it takes. -/
def distances (ids : List String) (edges : List (String × String)) (root : String) :
    List (String × Nat) :=
  spread edges ids.length 0 [root] [(root, 0)]

/-- A way to find distances: what can be reached from a root along the edges
among some ids, each id with the least number of edges it takes. -/
abbrev Search := List String → List (String × String) → String → List (String × Nat)

/-- The rank behind all those in use. -/
def nextRank (ranks : List (String × Nat)) : Nat :=
  ranks.foldl (fun next r => max next (r.2 + 1)) 0

/-- Ranks what a root reaches, unless it has a rank. -/
def extend (search : String → List (String × Nat)) (ranks : List (String × Nat))
    (root : String) : List (String × Nat) :=
  if (ranks.lookup root).isSome then ranks
  else
    let base := nextRank ranks
    let fresh := (search root).filter (fun d => (ranks.lookup d.1).isNone)
    ranks ++ fresh.map (fun d => (d.1, base + d.2))

/-- The rank of every id. -/
def assign (search : Search) (ids : List String) (edges : List (String × String)) :
    List (String × Nat) :=
  ids.foldl (extend (search ids edges)) []

/-- The rank of an id; ids that are not ranked count as first. -/
def of (ranks : List (String × Nat)) (id : String) : Nat := (ranks.lookup id).getD 0

end CallFlow.Rank
