import OpGraph.Proofs.Graph.Build
import OpGraph.Pattern.Traversal

namespace OpGraph

namespace Graph

/-- What queueing `ids` after `seen` gives: the ids added are new and distinct, every id offered
is seen afterwards, and nothing else is. -/
structure Queued (seen ids seen' added : List Nat) : Prop where
  distinct : added.Nodup
  fresh : ∀ x ∈ added, x ∉ seen
  offered : ∀ x ∈ added, x ∈ ids
  seenAfter : ∀ x, x ∈ seen' ↔ x ∈ seen ∨ x ∈ added
  covered : ∀ x ∈ ids, x ∈ seen'

theorem foldl_enqueue {step : List Nat × List Nat → Nat → List Nat × List Nat}
    (behaves : ∀ s a n, step (s, a) n = if s.contains n then (s, a) else (n :: s, a ++ [n]))
    {seen : List Nat} :
    ∀ (ids pre s a : List Nat), Queued seen pre s a →
      Queued seen (pre ++ ids) (ids.foldl step (s, a)).1 (ids.foldl step (s, a)).2
  | [], pre, s, a, queued => by simpa using queued
  | n :: rest, pre, s, a, queued => by
    rw [List.foldl_cons, behaves, show pre ++ n :: rest = (pre ++ [n]) ++ rest by simp]
    by_cases known : s.contains n = true
    · -- `n` was seen already: nothing is added
      rw [if_pos known]
      apply foldl_enqueue behaves rest
      have member : n ∈ s := by simpa using known
      exact { queued with
        offered := fun x added => List.mem_append_left _ (queued.offered x added)
        covered := fun x offered => by
          rcases List.mem_append.mp offered with old | new
          · exact queued.covered x old
          · simp only [List.mem_singleton] at new
            exact new ▸ member }
    · rw [if_neg known]
      apply foldl_enqueue behaves rest
      have absent : n ∉ s := by simpa using known
      refine ⟨?_, ?_, ?_, ?_, ?_⟩
      · exact queued.distinct.append (List.nodup_singleton n) (by
          simp only [List.disjoint_singleton]
          exact fun added => absent ((queued.seenAfter n).mpr (Or.inr added)))
      · intro x added
        rcases List.mem_append.mp added with old | new
        · exact queued.fresh x old
        · simp only [List.mem_singleton] at new
          exact new ▸ fun seenBefore => absent ((queued.seenAfter n).mpr (Or.inl seenBefore))
      · intro x added
        rcases List.mem_append.mp added with old | new
        · exact List.mem_append_left _ (queued.offered x old)
        · simp [List.mem_singleton.mp new]
      · intro x
        simp only [List.mem_cons, List.mem_append, queued.seenAfter x]
        tauto
      · intro x offered
        rcases List.mem_append.mp offered with old | new
        · exact List.mem_cons_of_mem _ (queued.covered x old)
        · simp [List.mem_singleton.mp new]

theorem enqueue_queued (seen ids : List Nat) :
    Queued seen ids (enqueue seen ids).1 (enqueue seen ids).2 := by
  have start : Queued seen [] seen [] := ⟨List.nodup_nil, by simp, by simp, by simp, by simp⟩
  suffices run : Queued seen ([] ++ ids) (enqueue seen ids).1 (enqueue seen ids).2 by
    simpa using run
  unfold enqueue
  refine foldl_enqueue ?_ ids [] seen [] start
  intro s a n
  rfl

theorem neighbours_lt (g : Graph) (d : Direction) (id : Nat) :
    ∀ x ∈ g.neighbours d id, x < g.opCount := by
  intro x member
  cases d with
  | forward =>
    simp only [neighbours, List.mem_flatMap, List.mem_map] at member
    obtain ⟨t, -, use, used, rfl⟩ := member
    simp only [tensorUses, List.mem_map, List.mem_filter] at used
    obtain ⟨⟨name, use'⟩, ⟨slot, -⟩, rfl⟩ := used
    simp only [Index.inputSlots, List.mem_flatten, List.mem_map] at slot
    obtain ⟨_, ⟨⟨op, i⟩, atI, rfl⟩, inOp⟩ := slot
    obtain ⟨⟨t', s⟩, -, same⟩ := List.mem_map.mp inOp
    cases same
    simpa [opCount] using List.mem_zipIdx atI |>.2.1
  | backward =>
    simp only [neighbours, inputOpIds, List.mem_filterMap] at member
    obtain ⟨t, -, found⟩ := member
    obtain ⟨r, lookedUp, rfl⟩ := Option.map_eq_some_iff.mp found
    obtain ⟨op, -, atOp, -⟩ := Index.mem_outputSlots.mp (Index.mem_of_lookup_eq_some lookedUp)
    simpa [opCount] using (List.getElem?_eq_some_iff.mp atOp).1

/-- The state of a traversal from `roots`: the ops visited (latest first) and the queue, listed in
visiting order, hold no repeats, are exactly the ops seen, lie in the arena, and each is a root or
a neighbour of an op visited before it. -/
structure Reached (g : Graph) (d : Direction) (roots seen queue visited : List Nat) : Prop where
  distinct : (visited.reverse ++ queue).Nodup
  seenExact : ∀ x, x ∈ seen ↔ x ∈ visited.reverse ++ queue
  inRange : ∀ x ∈ visited.reverse ++ queue, x < g.opCount
  reached : ∀ (i x : Nat), (visited.reverse ++ queue)[i]? = some x → x ∈ roots ∨
    ∃ (j c : Nat), j < i ∧ j < visited.length ∧ (visited.reverse ++ queue)[j]? = some c ∧
      x ∈ g.neighbours d c

theorem Reached.visit {g : Graph} {d : Direction} {roots seen rest visited : List Nat} {id : Nat}
    (state : Reached g d roots seen (id :: rest) visited) :
    Reached g d roots (enqueue seen (g.neighbours d id)).1
      (rest ++ (enqueue seen (g.neighbours d id)).2)
      (id :: visited) := by
  have queued := enqueue_queued seen (g.neighbours d id)
  generalize (enqueue seen (g.neighbours d id)).1 = seen' at queued
  generalize (enqueue seen (g.neighbours d id)).2 = added at queued
  -- the new state lists the old one followed by the ops added
  have shape :
      (id :: visited).reverse ++ (rest ++ added) = (visited.reverse ++ id :: rest) ++ added := by
    simp
  refine ⟨?_, ?_, ?_, ?_⟩ <;> rw [shape]
  · refine state.distinct.append queued.distinct fun x old new => ?_
    exact queued.fresh x new ((state.seenExact x).mpr old)
  · intro x
    simp only [queued.seenAfter x, state.seenExact x, List.mem_append]
  · intro x member
    rcases List.mem_append.mp member with old | new
    · exact state.inRange x old
    · exact neighbours_lt g d id x (queued.offered x new)
  · intro i x atI
    by_cases old : i < (visited.reverse ++ id :: rest).length
    · rw [List.getElem?_append_left old] at atI
      rcases state.reached i x atI with root | ⟨j, c, before, wasVisited, atJ, near⟩
      · exact Or.inl root
      · refine Or.inr ⟨j, c, before, by simp; omega, ?_, near⟩
        rw [List.getElem?_append_left (by omega), atJ]
    · -- an added op is a neighbour of `id`, which now sits at the end of the visited ops
      rw [List.getElem?_append_right (by omega)] at atI
      have added' := List.mem_of_getElem? atI
      refine Or.inr ⟨visited.length, id, by simp at old ⊢; omega, by simp, ?_,
        queued.offered x added'⟩
      rw [List.getElem?_append_left (by simp), List.getElem?_append_right (by simp)]
      simp

/-- The ops a run visits are distinct, lie in the arena, and each is a root or a neighbour of an op
visited before it. -/
theorem bfsLoop_reached {g : Graph} {d : Direction} {roots : List Nat} :
    ∀ (fuel : Nat) (seen queue visited : List Nat), Reached g d roots seen queue visited →
      (g.bfsLoop d fuel seen queue visited).Nodup ∧
        (∀ x : Nat, x ∈ g.bfsLoop d fuel seen queue visited → x < g.opCount) ∧
        ∀ (i x : Nat), (g.bfsLoop d fuel seen queue visited)[i]? = some x → x ∈ roots ∨
          ∃ (j c : Nat), j < i ∧ (g.bfsLoop d fuel seen queue visited)[j]? = some c ∧
            x ∈ g.neighbours d c
  | 0, seen, queue, visited, state => by
    simp only [bfsLoop]
    exact prefixReached state
  | fuel + 1, seen, [], visited, state => by
    simp only [bfsLoop]
    exact prefixReached state
  | fuel + 1, seen, id :: rest, visited, state => by
    simp only [bfsLoop]
    exact bfsLoop_reached fuel _ _ _ state.visit
where
  /-- The visited ops of a state already have the three properties. -/
  prefixReached {seen queue visited : List Nat} (state : Reached g d roots seen queue visited) :
      visited.reverse.Nodup ∧ (∀ x : Nat, x ∈ visited.reverse → x < g.opCount) ∧
        ∀ (i x : Nat), visited.reverse[i]? = some x → x ∈ roots ∨
          ∃ (j c : Nat), j < i ∧ visited.reverse[j]? = some c ∧ x ∈ g.neighbours d c := by
    refine ⟨state.distinct.sublist (List.sublist_append_left _ _),
      fun x member => state.inRange x (List.mem_append_left _ member), ?_⟩
    intro i x atI
    have inside : i < visited.reverse.length := (List.getElem?_eq_some_iff.mp atI).1
    rcases state.reached i x (by rw [List.getElem?_append_left inside, atI]) with root |
      ⟨j, c, before, _, atJ, near⟩
    · exact Or.inl root
    · refine Or.inr ⟨j, c, before, ?_, near⟩
      rwa [List.getElem?_append_left (by omega)] at atJ

/-- The state a traversal starts from: the roots of the arena queued, nothing visited. -/
theorem reached_start (g : Graph) (d : Direction) (roots : List Nat) :
    Reached g d roots (enqueue [] (roots.filter (· < g.opCount))).1
      (enqueue [] (roots.filter (· < g.opCount))).2 [] := by
  have queued := enqueue_queued [] (roots.filter (· < g.opCount))
  refine ⟨by simpa using queued.distinct, fun x => by simpa using queued.seenAfter x, ?_, ?_⟩
  · intro x member
    simpa using (List.mem_filter.mp (queued.offered x (by simpa using member))).2
  · intro i x atI
    have offered := queued.offered x (by simpa using List.mem_of_getElem? atI)
    exact Or.inl (List.mem_filter.mp offered).1

/-- A breadth-first traversal visits distinct ops of the arena, each a root or a neighbour of an op
visited before it. -/
theorem bfs_reached (g : Graph) (d : Direction) (roots : List Nat) :
    (g.bfs d roots).Nodup ∧ (∀ x : Nat, x ∈ g.bfs d roots → x < g.opCount) ∧
      ∀ (i x : Nat), (g.bfs d roots)[i]? = some x → x ∈ roots ∨
        ∃ (j c : Nat), j < i ∧ (g.bfs d roots)[j]? = some c ∧ x ∈ g.neighbours d c :=
  bfsLoop_reached g.opCount _ _ [] (reached_start g d roots)

end Graph

end OpGraph
