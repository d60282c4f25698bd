import OpGraph.Proofs.Pattern.Traversal
import OpGraph.Proofs.Graph.Ancestors
import OpGraph.Proofs.Transform.ReadCounts
import OpGraph.Pattern.Matcher

namespace OpGraph

namespace Graph

/-- One step of a traversal: `b` is a neighbour of `a`. -/
def Step (g : Graph) (d : Direction) (a b : Nat) : Prop := b ∈ g.neighbours d a

/-- Queueing adds the ids not seen yet, each once, first occurrence first, and marks them seen. -/
theorem foldl_enqueue_eq {step : List Nat × List Nat → Nat → List Nat × List Nat}
    (behaves : ∀ s a n, step (s, a) n = if s.contains n then (s, a) else (n :: s, a ++ [n])) :
    ∀ (ids s a : List Nat), ids.foldl step (s, a) =
      ((ids.filter (· ∉ s)).eraseDups.reverse ++ s, a ++ (ids.filter (· ∉ s)).eraseDups)
  | [], s, a => by simp
  | n :: rest, s, a => by
    rw [List.foldl_cons, behaves]
    by_cases known : n ∈ s
    · rw [if_pos (List.contains_iff_mem.mpr known), foldl_enqueue_eq behaves rest s a]
      simp [known]
    · rw [if_neg (by simpa using known), foldl_enqueue_eq behaves rest (n :: s) (a ++ [n])]
      -- leaving out `n :: s` is leaving out `s`, then the repeats of `n`
      have dropped : rest.filter (· ∉ n :: s) = (rest.filter (· ∉ s)).filter (fun b => !b == n) := by
        rw [List.filter_filter]
        refine List.filter_congr fun b _ => ?_
        by_cases same : b = n <;> simp [same, known]
      have added : ((n :: rest).filter (· ∉ s)).eraseDups = n :: (rest.filter (· ∉ n :: s)).eraseDups := by
        rw [List.filter_cons_of_pos (by simpa using known), List.eraseDups_cons, dropped]
      rw [added]
      simp

theorem enqueue_snd (seen ids : List Nat) :
    (enqueue seen ids).2 = (ids.filter (· ∉ seen)).eraseDups := by
  unfold enqueue
  rw [foldl_enqueue_eq (fun _ _ _ => rfl)]
  simp

/-- Ops visited or queued, without repeats and inside the arena, number at most the arena's size. -/
theorem Reached.length_le {g : Graph} {d : Direction} {roots seen queue visited : List Nat}
    (state : Reached g d roots seen queue visited) :
    visited.length + queue.length ≤ g.opCount := by
  have within := (state.distinct.subperm fun x member =>
    List.mem_range.mpr (state.inRange x member)).length_le
  simpa using within

/-- A run with enough fuel empties its queue. What it returns starts with the ops visited and
queued, and holds every neighbour of every op in it. The induction is on the fuel; the visited ops
keep every neighbour among the visited and queued ones. -/
theorem bfsLoop_closed {g : Graph} {d : Direction} {roots : List Nat} :
    ∀ (fuel : Nat) (seen queue visited : List Nat), Reached g d roots seen queue visited →
      (∀ c ∈ visited, ∀ x ∈ g.neighbours d c, x ∈ visited ∨ x ∈ queue) →
      g.opCount ≤ fuel + visited.length →
      visited.reverse ++ queue <+: g.bfsLoop d fuel seen queue visited ∧
        ∀ c ∈ g.bfsLoop d fuel seen queue visited, ∀ x ∈ g.neighbours d c,
          x ∈ g.bfsLoop d fuel seen queue visited
  | 0, seen, queue, visited, state, closed, enough => by
    -- the visited ops fill the arena, so nothing is left queued
    have empty : queue = [] := List.eq_nil_of_length_eq_zero (by have := state.length_le; omega)
    subst empty
    simp only [bfsLoop, List.append_nil, List.mem_reverse]
    refine ⟨List.prefix_refl _, fun c member x near => ?_⟩
    simpa using closed c member x near
  | fuel + 1, seen, [], visited, state, closed, _ => by
    simp only [bfsLoop, List.append_nil, List.mem_reverse]
    refine ⟨List.prefix_refl _, fun c member x near => ?_⟩
    simpa using closed c member x near
  | fuel + 1, seen, id :: rest, visited, state, closed, enough => by
    simp only [bfsLoop]
    have queued := enqueue_queued seen (g.neighbours d id)
    -- the neighbours of `id` are now seen: visited, queued before, or just added
    have closed' : ∀ c ∈ id :: visited, ∀ x ∈ g.neighbours d c,
        x ∈ id :: visited ∨ x ∈ rest ++ (enqueue seen (g.neighbours d id)).2 := by
      intro c member x near
      have wasSeen : x ∈ visited.reverse ++ id :: rest ∨ x ∈ (enqueue seen (g.neighbours d id)).2 := by
        rcases List.mem_cons.mp member with rfl | old
        · rcases (queued.seenAfter x).mp (queued.covered x near) with before | added
          · exact .inl ((state.seenExact x).mp before)
          · exact .inr added
        · rcases closed c old x near with inVisited | inQueue
          · exact .inl (List.mem_append_left _ (List.mem_reverse.mpr inVisited))
          · exact .inl (List.mem_append_right _ inQueue)
      simp only [List.mem_append, List.mem_reverse, List.mem_cons] at wasSeen ⊢
      tauto
    obtain ⟨prefixed, closedRun⟩ := bfsLoop_closed fuel _ _ _ state.visit closed'
      (by simp only [List.length_cons]; omega)
    refine ⟨List.IsPrefix.trans ?_ prefixed, closedRun⟩
    simp

/-- A traversal returns the roots of the arena first, each once in the order given, and holds every
neighbour of every op it returns. -/
theorem bfs_closed (g : Graph) (d : Direction) (roots : List Nat) :
    (roots.filter (· < g.opCount)).eraseDups <+: g.bfs d roots ∧
      ∀ c ∈ g.bfs d roots, ∀ x ∈ g.neighbours d c, x ∈ g.bfs d roots := by
  have queue : (enqueue [] (roots.filter (· < g.opCount))).2 =
      (roots.filter (· < g.opCount)).eraseDups := by
    simp [enqueue_snd]
  obtain ⟨prefixed, closed⟩ := bfsLoop_closed g.opCount _ _ [] (reached_start g d roots)
    (fun c member => by cases member) (by simp)
  refine ⟨?_, closed⟩
  rw [← queue]
  exact prefixed

/-- A traversal returns exactly the ops reached from a root of the arena. -/
theorem mem_bfs {g : Graph} {d : Direction} {roots : List Nat} {x : Nat} :
    x ∈ g.bfs d roots ↔ ∃ r ∈ roots, r < g.opCount ∧ Relation.ReflTransGen (g.Step d) r x := by
  obtain ⟨-, inRange, reached⟩ := bfs_reached g d roots
  constructor
  · intro member
    -- the op at each position is reached from a root, by induction on the position
    have fromRoot : ∀ (i y : Nat), (g.bfs d roots)[i]? = some y →
        ∃ r ∈ roots, r < g.opCount ∧ Relation.ReflTransGen (g.Step d) r y := by
      intro i
      induction i using Nat.strong_induction_on with
      | _ i ih =>
        intro y atI
        rcases reached i y atI with root | ⟨j, c, before, atJ, near⟩
        · exact ⟨y, root, inRange y (List.mem_of_getElem? atI), .refl⟩
        · obtain ⟨r, root, bound, path⟩ := ih j before c atJ
          exact ⟨r, root, bound, path.tail near⟩
    obtain ⟨i, atI⟩ := List.mem_iff_getElem?.mp member
    exact fromRoot i x atI
  · rintro ⟨r, root, bound, path⟩
    obtain ⟨rootsFirst, closed⟩ := bfs_closed g d roots
    induction path with
    | refl => exact rootsFirst.subset (List.mem_eraseDups.mpr (List.mem_filter.mpr ⟨root, by simpa using bound⟩))
    | tail _ step ih => exact closed _ ih _ step

/-- Backwards, a step goes from a consumer to a producer it reads from. -/
theorem step_backward_iff {g : Graph} {a b : Nat} : g.Step .backward a b ↔ g.ReadsFrom b a :=
  Iff.rfl

/-- Both ends of an input edge are ops of the arena. -/
theorem ReadsFrom.lt {g : Graph} {p c : Nat} (reads : g.ReadsFrom p c) :
    p < g.opCount ∧ c < g.opCount := by
  refine ⟨neighbours_lt g .backward c p reads, ?_⟩
  by_contra outside
  -- an id outside the arena stands for the default op, which reads nothing
  have none : g.inputOpIds (g.opAt c) = [] := by
    simp [opAt_of_le (Nat.le_of_not_lt outside), inputOpIds]
  simp [ReadsFrom, none] at reads

/-- A path along input edges either stays put or joins two ops of the arena. -/
theorem reads_path_lt {g : Graph} {x r : Nat} (path : Relation.ReflTransGen g.ReadsFrom x r) :
    x = r ∨ (x < g.opCount ∧ r < g.opCount) := by
  rcases Relation.ReflTransGen.cases_head path with same | ⟨y, first, _⟩
  · exact .inl same
  · rcases Relation.ReflTransGen.cases_tail path with same | ⟨z, _, last⟩
    · exact .inl same.symm
    · exact .inr ⟨first.lt.1, last.lt.2⟩

/-- The backward traversal and the depth-first walk of `ancestorsOf` find the same ops. -/
theorem mem_bfs_backward {g : Graph} {roots : List Nat} {x : Nat} :
    x ∈ g.bfs .backward roots ↔ x ∈ g.ancestorsOf roots := by
  have swapped : Relation.ReflTransGen (g.Step .backward) = Function.swap (Relation.ReflTransGen g.ReadsFrom) := by
    funext a b
    exact propext Relation.reflTransGen_swap
  rw [mem_bfs, mem_ancestorsOf_iff_reaches, swapped]
  constructor
  · rintro ⟨r, root, bound, path⟩
    rcases reads_path_lt path with same | ⟨inRange, _⟩
    · exact ⟨same ▸ bound, r, root, path⟩
    · exact ⟨inRange, r, root, path⟩
  · rintro ⟨inRange, r, root, path⟩
    rcases reads_path_lt path with same | ⟨_, bound⟩
    · exact ⟨r, root, same ▸ inRange, path⟩
    · exact ⟨r, root, bound, path⟩

/-- Forwards, a step goes from an op to an op that reads one of its outputs. -/
theorem step_forward_iff {g : Graph} {a b : Nat} : g.Step .forward a b ↔ Feeds g.ops.toList a b := by
  simp only [Step, neighbours, List.mem_flatMap, List.mem_map, mem_tensorUses, Feeds, getD_toList]
  constructor
  · rintro ⟨t, output, ⟨b', slot⟩, ⟨_, atSlot⟩, rfl⟩
    exact ⟨t.name, List.mem_of_getElem? atSlot, t, output, rfl⟩
  · rintro ⟨name, input, t, output, rfl⟩
    obtain ⟨slot, atSlot⟩ := List.mem_iff_getElem?.mp input
    -- an id outside the arena stands for the default op, which reads nothing
    have bound : b < g.opCount := by
      by_contra outside
      simp [opAt_of_le (Nat.le_of_not_lt outside)] at input
    exact ⟨t, output, ⟨b, slot⟩, ⟨bound, atSlot⟩, rfl⟩

/-- The forward traversal returns exactly the descendants of the roots of the arena. -/
theorem mem_bfs_forward {g : Graph} {roots : List Nat} {x : Nat} :
    x ∈ g.bfs .forward roots ↔
      ∃ r ∈ roots, r < g.opCount ∧ Relation.ReflTransGen (Feeds g.ops.toList) r x := by
  have edges : g.Step .forward = Feeds g.ops.toList := by
    funext a b
    exact propext step_forward_iff
  rw [mem_bfs, edges]

/-- The consumption order starts with the output ops, in the order they are declared. -/
theorem outputs_prefix_consumptionOrder {g : Graph} (valid : g.Valid) :
    g.outputs <+: g.consumptionOrder := by
  have inArena : g.outputs.filter (· < g.opCount) = g.outputs :=
    List.filter_eq_self.mpr fun i member => decide_eq_true (valid.outputsInRange i member)
  simpa [consumptionOrder, inArena, eraseDups_eq_self valid.outputsDistinct] using
    (bfs_closed g .backward g.outputs).1

/-- The consumption order lists every op exactly when it is as long as the arena. -/
theorem length_consumptionOrder_eq_iff (g : Graph) :
    g.consumptionOrder.length = g.opCount ↔ ∀ i < g.opCount, i ∈ g.ancestorsOf g.outputs := by
  obtain ⟨distinct, inRange, -⟩ := bfs_reached g .backward g.outputs
  unfold consumptionOrder
  constructor
  · intro length i bound
    have perm := perm_range_iff.mpr ⟨length, distinct, inRange⟩
    exact mem_bfs_backward.mp (perm.mem_iff.mpr (List.mem_range.mpr bound))
  · intro all
    have perm : (g.bfs .backward g.outputs).Perm (List.range g.opCount) :=
      (List.perm_ext_iff_of_nodup distinct List.nodup_range).mpr fun i =>
        ⟨fun member => List.mem_range.mpr (inRange i member),
          fun member => mem_bfs_backward.mpr (all i (List.mem_range.mp member))⟩
    simpa using perm.length_eq

end Graph

namespace Matcher

/-- Checking a pattern: without output ops it fails saying so; otherwise it succeeds when every op
is an ancestor of an output op, and else fails naming the first op in arena order that is not. -/
theorem make_cases (P : Graph) (R : Equivalences) :
    (P.outputs = [] ∧ make P R = .error (.invalidPattern "pattern has no output nodes")) ∨
      (P.outputs ≠ [] ∧ (∀ i < P.opCount, i ∈ P.ancestorsOf P.outputs) ∧
        make P R = .ok ⟨P, R, P.consumptionOrder⟩) ∨
      (P.outputs ≠ [] ∧ ∃ i < P.opCount, i ∉ P.ancestorsOf P.outputs ∧
        (∀ j < i, j ∈ P.ancestorsOf P.outputs) ∧
        make P R = .error (.invalidPattern ("op '" ++ (P.opAt i).name ++ "' does not feed any output node"))) := by
  by_cases noOutputs : P.outputs = []
  · exact .inl ⟨noOutputs, by simp [make, noOutputs]⟩
  by_cases all : ∀ i < P.opCount, i ∈ P.ancestorsOf P.outputs
  · have length := (Graph.length_consumptionOrder_eq_iff P).mpr all
    exact .inr (.inl ⟨noOutputs, all, by simp [make, noOutputs, length]⟩)
  have length : P.consumptionOrder.length ≠ P.opCount :=
    fun same => all ((Graph.length_consumptionOrder_eq_iff P).mp same)
  -- the check looks for the first id of the arena missing from the order
  have inOrder : ∀ i, i ∈ P.consumptionOrder ↔ i ∈ P.ancestorsOf P.outputs :=
    fun _ => Graph.mem_bfs_backward
  cases found : (List.range P.opCount).find? (fun i => !P.consumptionOrder.contains i) with
  | none =>
    refine absurd (fun i bound => ?_) all
    have kept := List.find?_eq_none.mp found i (List.mem_range.mpr bound)
    simpa [inOrder] using kept
  | some i =>
    obtain ⟨missing, inRange, before⟩ := List.find?_range_eq_some.mp found
    refine .inr (.inr ⟨noOutputs, i, List.mem_range.mp inRange, by simpa [inOrder] using missing,
      fun j lt => by simpa [inOrder] using before j lt, ?_⟩)
    simp only [make, List.isEmpty_iff, noOutputs, if_false]
    rw [if_pos (by simpa using length), found]
    rfl

end Matcher

/-- Traversal visits each op once, the roots first; backwards it reaches exactly the roots'
ancestors, forwards their descendants. So a pattern is accepted exactly when it has an output op
and every op is an ancestor of one, else refused naming the first op that is not. -/
theorem traversal_reaches_ancestors_then_checks_pattern (g : Graph) (valid : g.Valid)
    (roots : List Nat) (R : Equivalences) :
    (∀ d, (g.bfs d roots).Nodup ∧ (roots.filter (· < g.opCount)).eraseDups <+: g.bfs d roots) ∧
      (∀ x, x ∈ g.bfs .backward roots ↔ x ∈ g.ancestorsOf roots) ∧
      (∀ (i x : Nat), (g.bfs .backward roots)[i]? = some x → x ∉ roots →
        ∃ (j c : Nat), j < i ∧ (g.bfs .backward roots)[j]? = some c ∧ Feeds g.ops.toList x c) ∧
      (∀ x, x ∈ g.bfs .forward roots ↔
        ∃ r ∈ roots, r < g.opCount ∧ Relation.ReflTransGen (Feeds g.ops.toList) r x) ∧
      g.outputs <+: g.consumptionOrder ∧
      ((∃ m, Matcher.make g R = .ok m) ↔
        g.outputs ≠ [] ∧ ∀ i < g.opCount, i ∈ g.ancestorsOf g.outputs) ∧
      (g.outputs = [] → Matcher.make g R = .error (.invalidPattern "pattern has no output nodes")) ∧
      ∀ i < g.opCount, g.outputs ≠ [] → i ∉ g.ancestorsOf g.outputs →
        (∀ j < i, j ∈ g.ancestorsOf g.outputs) →
        Matcher.make g R =
          .error (.invalidPattern ("op '" ++ (g.opAt i).name ++ "' does not feed any output node")) := by
  obtain ⟨-, -, reachedBack⟩ := g.bfs_reached .backward roots
  refine ⟨fun d => ⟨(g.bfs_reached d roots).1, (g.bfs_closed d roots).1⟩,
    fun x => Graph.mem_bfs_backward, fun i x atI notRoot => ?_, fun x => Graph.mem_bfs_forward,
    Graph.outputs_prefix_consumptionOrder valid, ?_, fun noOutputs => ?_, fun i bound hasOutputs missing before => ?_⟩
  · rcases reachedBack i x atI with root | ⟨j, c, earlier, atJ, near⟩
    · exact absurd root notRoot
    · exact ⟨j, c, earlier, atJ, (Graph.mem_inputOpIds_opAt valid.distinctTensors).mp near⟩
  · rcases Matcher.make_cases g R with ⟨noOutputs, failed⟩ | ⟨hasOutputs, all, made⟩ |
      ⟨_, i, bound, missing, _, failed⟩
    · refine ⟨fun ⟨m, made⟩ => ?_, fun ⟨hasOutputs, _⟩ => absurd noOutputs hasOutputs⟩
      rw [failed] at made
      cases made
    · exact ⟨fun _ => ⟨hasOutputs, all⟩, fun _ => ⟨_, made⟩⟩
    · refine ⟨fun ⟨m, made⟩ => ?_, fun ⟨_, all⟩ => absurd (all i bound) missing⟩
      rw [failed] at made
      cases made
  · rcases Matcher.make_cases g R with ⟨_, failed⟩ | ⟨hasOutputs, _⟩ | ⟨hasOutputs, _⟩
    · exact failed
    · exact absurd noOutputs hasOutputs
    · exact absurd noOutputs hasOutputs
  · rcases Matcher.make_cases g R with ⟨noOutputs, _⟩ | ⟨_, all, _⟩ |
      ⟨_, k, _, kMissing, kBefore, failed⟩
    · exact absurd noOutputs hasOutputs
    · exact absurd (all i bound) missing
    · -- both are the first op that is not an ancestor of an output op
      have same : k = i := by
        rcases Nat.lt_trichotomy k i with lt | eq | gt
        · exact absurd (before k lt) kMissing
        · exact eq
        · exact absurd (kBefore i gt) missing
      rw [failed, same]

/-- `relu` reads `x`, `add` reads `relu` and `x`, and `stray` feeds nothing. -/
def strayGraph : Graph :=
  ⟨#[⟨"x", "Placeholder", [], [⟨"x:0", .float, ⟨none⟩⟩], []⟩,
     ⟨"relu", "Relu", ["x:0"], [⟨"relu:0", .float, ⟨none⟩⟩], []⟩,
     ⟨"add", "Add", ["relu:0", "x:0"], [⟨"add:0", .float, ⟨none⟩⟩], []⟩,
     ⟨"stray", "Const", [], [⟨"stray:0", .float, ⟨none⟩⟩], []⟩], [0, 1, 3, 2], [2], ⟨[]⟩⟩

theorem strayGraph_traversed_then_rejected :
    strayGraph.Valid ∧ strayGraph.bfs .backward [3, 1, 7, 1] = [3, 1, 0] ∧
      (∀ x, x ∈ strayGraph.bfs .backward [3, 1, 7, 1] ↔ x ∈ strayGraph.ancestorsOf [3, 1, 7, 1]) ∧
      Matcher.make strayGraph Equivalences.defaults =
        .error (.invalidPattern "op 'stray' does not feed any output node") := by
  have valid : strayGraph.Valid :=
    ⟨by decide, by decide, by decide, by decide, by decide, by decide⟩
  obtain ⟨-, backward, -, -, -, -, -, stray⟩ :=
    traversal_reaches_ancestors_then_checks_pattern strayGraph valid [3, 1, 7, 1]
      Equivalences.defaults
  exact ⟨valid, by decide, backward, stray 3 (by decide) (by decide) (by decide) (by decide)⟩

/-- A one-op pattern without output ops. -/
def loosePattern : Graph := ⟨#[⟨"x", "Placeholder", [], [⟨"x:0", .float, ⟨none⟩⟩], []⟩], [0], [], ⟨[]⟩⟩

/-- Checking a pattern without output ops names no op: `x` is the first op in arena order that is
not an ancestor of an output op, and the message does not name it. -/
theorem loosePattern_rejected_without_naming :
    loosePattern.Valid ∧ 0 ∉ loosePattern.ancestorsOf loosePattern.outputs ∧
      Matcher.make loosePattern Equivalences.defaults =
        .error (.invalidPattern "pattern has no output nodes") ∧
      Matcher.make loosePattern Equivalences.defaults ≠
        .error (.invalidPattern "op 'x' does not feed any output node") := by
  have made : Matcher.make loosePattern Equivalences.defaults =
      .error (.invalidPattern "pattern has no output nodes") := rfl
  refine ⟨⟨by decide, by decide, by decide, by decide, by decide, by decide⟩, by decide, made,
    fun named => ?_⟩
  rw [made] at named
  simp at named

end OpGraph
