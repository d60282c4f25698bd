import OpGraph.Graph.Basic

namespace OpGraph

/-- Which edges a traversal follows. -/
inductive Direction where
  | forward
  | backward
  deriving DecidableEq, Repr

namespace Graph

/-- The ops one step away from an op, in order, repeats kept. -/
def neighbours (g : Graph) (d : Direction) (id : Nat) : List Nat :=
  let op := g.opAt id
  match d with
  | .forward => op.outputs.flatMap fun t => (g.tensorUses t.name).map (·.op)
  | .backward => g.inputOpIds op

/-- Queue the ids not seen yet, in order. -/
def enqueue (seen : List Nat) (ids : List Nat) : List Nat × List Nat :=
  ids.foldl (fun (s, added) n => if s.contains n then (s, added) else (n :: s, added ++ [n])) (seen, [])

/-- Visit queued ops for at most `fuel` steps. -/
def bfsLoop (g : Graph) (d : Direction) : Nat → List Nat → List Nat → List Nat → List Nat
  | 0, _, _, visited => visited.reverse
  | fuel + 1, seen, queue, visited =>
    match queue with
    | [] => visited.reverse
    | id :: rest =>
      let (seen', added) := enqueue seen (g.neighbours d id)
      bfsLoop g d fuel seen' (rest ++ added) (id :: visited)

/-- The ops reached breadth-first from `roots`, in visiting order. Each op is queued at most once,
so as many steps as there are ops suffice. -/
def bfs (g : Graph) (d : Direction) (roots : List Nat) : List Nat :=
  let (seen, queue) := enqueue [] (roots.filter (· < g.opCount))
  bfsLoop g d g.opCount seen queue []

/-- The order in which a pattern's ops are bound: breadth-first backwards from the output ops. -/
def consumptionOrder (g : Graph) : List Nat := g.bfs .backward g.outputs

end Graph

end OpGraph
