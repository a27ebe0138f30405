import Infra.Text.Order

/-!
# Directed graphs of names

A graph lists its nodes, each with its neighbours. A neighbour that is no node has no outgoing
edges.

* `Graph.nodes`, `Graph.neighbours` : the nodes in order and the sorted neighbours of one;
* `Graph.insert` : sets the neighbours of a node, which keeps its place if it is there already.
-/

namespace Infra

/-- The nodes of a directed graph, each with the names its edges lead to. -/
abbrev Graph := List (String × List String)

namespace Graph

/-- The nodes of a graph, in order. -/
def nodes (g : Graph) : List String := g.map (·.1)

/-- The neighbours of a node as they are listed. -/
def listed (g : Graph) (node : String) : List String := (g.lookup node).getD []

/-- The neighbours of a node in ascending order. -/
def neighbours (g : Graph) (node : String) : List String := Text.sorted (g.listed node)

/-- Sets the neighbours of a node. -/
def insert (g : Graph) (node : String) (targets : List String) : Graph :=
  if g.nodes.contains node then
    g.map fun entry => if entry.1 = node then (node, targets) else entry
  else g ++ [(node, targets)]

end Graph
end Infra
