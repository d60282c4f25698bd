import OpGraph.Proofs.Graph.Build
import OpGraph.Graph.Query
import Mathlib

namespace OpGraph

namespace Graph

theorem getElem?_toList_opAt {g : Graph} {id : Nat} (bound : id < g.opCount) :
    g.ops.toList[id]? = some (g.opAt id) := by
  simp only [opAt, opCount] at bound ⊢
  simp [bound]

theorem opAt_of_getElem? {g : Graph} {id : Nat} {op : Op} (atOp : g.ops.toList[id]? = some op) :
    g.opAt id = op := by
  simp only [opAt, Array.getElem?_toList] at atOp ⊢
  simp [atOp]

theorem opAt_of_le {g : Graph} {id : Nat} (outside : g.opCount ≤ id) : g.opAt id = default := by
  simp only [opAt, opCount] at outside ⊢
  simp [Array.getD_eq_getD_getElem?, Array.getElem?_eq_none outside]

theorem getD_toList (g : Graph) (id : Nat) : g.ops.toList.getD id default = g.opAt id := by
  simp [opAt, List.getD_eq_getElem?_getD, Array.getD_eq_getD_getElem?]

theorem toList_eq_map_opAt (g : Graph) : g.ops.toList = (List.range g.opCount).map g.opAt := by
  apply List.ext_getElem (by simp [opCount])
  intro i inOps inRange
  have bound : i < g.ops.size := by simpa [opCount] using inRange
  simp [opAt, bound]

/-- A tensor found by name is an output of the op of the arena it names, at the slot it names. -/
theorem tensorRef?_eq_some {g : Graph} {t : String} {r : TensorRef}
    (found : g.tensorRef? t = some r) :
    r.op < g.opCount ∧
      ∃ tensor, (g.opAt r.op).outputs[r.slot]? = some tensor ∧ tensor.name = t := by
  obtain ⟨op, tensor, atOp, atTensor, named⟩ :=
    Index.mem_outputSlots.mp (Index.mem_of_lookup_eq_some found)
  have bound : r.op < g.opCount := by
    simpa [opCount] using (List.getElem?_eq_some_iff.mp atOp).1
  exact ⟨bound, tensor, (opAt_of_getElem? atOp).symm ▸ atTensor, named⟩

theorem tensorRef?_output {g : Graph} (distinct : (tensorNames g.ops.toList).Nodup)
    {id slot : Nat} {tensor : Tensor} (bound : id < g.opCount)
    (atSlot : (g.opAt id).outputs[slot]? = some tensor) :
    g.tensorRef? tensor.name = some ⟨id, slot⟩ :=
  Index.lookup_eq_some_of_mem distinct
    (Index.mem_outputSlots.mpr ⟨_, tensor, getElem?_toList_opAt bound, atSlot, rfl⟩)

/-- With distinct tensor names, the producers an op reads from are the ops that feed it. -/
theorem mem_inputOpIds_opAt {g : Graph} (distinct : (tensorNames g.ops.toList).Nodup) {p c : Nat} :
    p ∈ g.inputOpIds (g.opAt c) ↔ Feeds g.ops.toList p c := by
  simp only [inputOpIds, List.mem_filterMap, Option.map_eq_some_iff]
  constructor
  · rintro ⟨t, input, r, found, rfl⟩
    exact feeds_of_lookup (by rwa [getD_toList]) found
  · intro feeds
    obtain ⟨t, input, slot, found⟩ := lookup_of_feeds distinct feeds
    exact ⟨t, by rwa [getD_toList] at input, _, found, rfl⟩

theorem length_inputOpIds_le (g : Graph) (op : Op) : (g.inputOpIds op).length ≤ op.inputs.length :=
  List.length_filterMap_le _ _

/-- The edges the walk follows: `p` is a producer the op at `c` reads from. -/
def ReadsFrom (g : Graph) (p c : Nat) : Prop := p ∈ g.inputOpIds (g.opAt c)

/-- A root can be reached from `x` along the edges the walk follows. -/
def ReachesRoot (g : Graph) (roots : List Nat) (x : Nat) : Prop :=
  ∃ r ∈ roots, Relation.ReflTransGen g.ReadsFrom x r

/-- What the walk still has to do at most: pop each stacked id, and push the inputs of every op
not yet marked. -/
def walkBound (g : Graph) (stack seen : List Nat) : Nat :=
  stack.length + (((List.range g.opCount).filter (· ∉ seen)).map fun i => (g.opAt i).inputs.length).sum

/-- Marking a new op takes its inputs off the bound; an id outside the arena has none. -/
theorem walkBound_mark (g : Graph) {id : Nat} {seen : List Nat} (fresh : id ∉ seen) (stack : List Nat) :
    walkBound g stack seen = walkBound g stack (id :: seen) + (g.opAt id).inputs.length := by
  unfold walkBound
  by_cases inRange : id < g.opCount
  · have member : id ∈ (List.range g.opCount).filter (· ∉ seen) := by simp [inRange, fresh]
    have erased : ((List.range g.opCount).filter (· ∉ seen)).erase id =
        (List.range g.opCount).filter (· ∉ id :: seen) := by
      rw [(List.nodup_range.filter _).erase_eq_filter, List.filter_filter]
      congr 1
      funext i
      by_cases same : i = id <;> simp [same]
    rw [← List.sum_map_erase _ member, erased]
    omega
  · have unchanged : (List.range g.opCount).filter (· ∉ id :: seen) =
        (List.range g.opCount).filter (· ∉ seen) := by
      refine List.filter_congr fun i member => ?_
      have other : i ≠ id := fun same => inRange (same ▸ List.mem_range.mp member)
      simp [other]
    rw [unchanged, opAt_of_le (Nat.le_of_not_lt inRange)]
    simp

/-- What holds of the walk's stack and marks: everything met reaches a root, every root has been
met, and every producer of a marked op is marked or still stacked. -/
structure WalkInv (g : Graph) (roots stack seen : List Nat) : Prop where
  seenReach : ∀ x ∈ seen, g.ReachesRoot roots x
  stackReach : ∀ x ∈ stack, g.ReachesRoot roots x
  rootsMet : ∀ r ∈ roots, r ∈ seen ∨ r ∈ stack
  closed : ∀ x ∈ seen, ∀ p, g.ReadsFrom p x → p ∈ seen ∨ p ∈ stack

section Walk

variable {g : Graph} {roots stack seen : List Nat}

theorem WalkInv.initial (g : Graph) (roots : List Nat) : WalkInv g roots roots [] where
  seenReach _ member := by cases member
  stackReach x member := ⟨x, member, .refl⟩
  rootsMet r member := .inr member
  closed _ member := by cases member

/-- Popping an id that is already marked. -/
theorem WalkInv.skip {id : Nat} (inv : WalkInv g roots (id :: stack) seen) (marked : id ∈ seen) :
    WalkInv g roots stack seen where
  seenReach := inv.seenReach
  stackReach x member := inv.stackReach x (List.mem_cons_of_mem id member)
  rootsMet r member := by
    rcases inv.rootsMet r member with met | stacked
    · exact .inl met
    · rcases List.mem_cons.mp stacked with rfl | later
      · exact .inl marked
      · exact .inr later
  closed x member p reads := by
    rcases inv.closed x member p reads with met | stacked
    · exact .inl met
    · rcases List.mem_cons.mp stacked with rfl | later
      · exact .inl marked
      · exact .inr later

/-- Popping a new id: mark it and stack those of its producers not met yet. -/
theorem WalkInv.visit {id : Nat} (inv : WalkInv g roots (id :: stack) seen) :
    WalkInv g roots
      (((g.inputOpIds (g.opAt id)).filter fun p => !(id :: seen).contains p).reverse ++ stack)
      (id :: seen) where
  seenReach x member := by
    rcases List.mem_cons.mp member with rfl | old
    · exact inv.stackReach x List.mem_cons_self
    · exact inv.seenReach x old
  stackReach x member := by
    rcases List.mem_append.mp member with pushed | old
    · -- a pushed producer reaches a root through the op it feeds
      have reads : g.ReadsFrom x id := List.mem_of_mem_filter (List.mem_reverse.mp pushed)
      obtain ⟨r, root, path⟩ := inv.stackReach id List.mem_cons_self
      exact ⟨r, root, path.head reads⟩
    · exact inv.stackReach x (List.mem_cons_of_mem id old)
  rootsMet r member := by
    rcases inv.rootsMet r member with met | stacked
    · exact .inl (List.mem_cons_of_mem id met)
    · rcases List.mem_cons.mp stacked with rfl | later
      · exact .inl List.mem_cons_self
      · exact .inr (List.mem_append_right _ later)
  closed x member p reads := by
    rcases List.mem_cons.mp member with rfl | old
    · by_cases met : p ∈ x :: seen
      · exact .inl met
      · exact .inr (List.mem_append_left _ (List.mem_reverse.mpr (List.mem_filter.mpr
          ⟨reads, by simpa using met⟩)))
    · rcases inv.closed x old p reads with met | stacked
      · exact .inl (List.mem_cons_of_mem id met)
      · rcases List.mem_cons.mp stacked with rfl | later
        · exact .inl List.mem_cons_self
        · exact .inr (List.mem_append_right _ later)

/-- A walk with more fuel than its bound empties its stack: what it marks reaches a root, holds
every root, and holds every producer of what it holds. The induction is on the fuel, and the bound
drops at every step. -/
theorem ancestorsLoop_spec (fuel : Nat) (inv : WalkInv g roots stack seen)
    (enough : walkBound g stack seen < fuel) :
    (∀ x ∈ g.ancestorsLoop fuel stack seen, g.ReachesRoot roots x) ∧
      (∀ r ∈ roots, r ∈ g.ancestorsLoop fuel stack seen) ∧
      ∀ x ∈ g.ancestorsLoop fuel stack seen, ∀ p, g.ReadsFrom p x →
        p ∈ g.ancestorsLoop fuel stack seen := by
  induction fuel generalizing stack seen with
  | zero => cases enough
  | succ fuel ih =>
    cases stack with
    | nil =>
      simp only [ancestorsLoop]
      refine ⟨inv.seenReach, fun r root => ?_, fun x member p reads => ?_⟩
      · simpa using inv.rootsMet r root
      · simpa using inv.closed x member p reads
    | cons id stack =>
      by_cases marked : id ∈ seen
      · have step : g.ancestorsLoop (fuel + 1) (id :: stack) seen = g.ancestorsLoop fuel stack seen := by
          simp [ancestorsLoop, marked]
        rw [step]
        exact ih (inv.skip marked) (by simp [walkBound] at enough ⊢; omega)
      · have step : g.ancestorsLoop (fuel + 1) (id :: stack) seen =
            g.ancestorsLoop fuel (((g.inputOpIds (g.opAt id)).filter fun p =>
              !(id :: seen).contains p).reverse ++ stack) (id :: seen) := by
          simp [ancestorsLoop, marked]
        rw [step]
        refine ih inv.visit ?_
        -- the pushed producers are at most the op's inputs, which marking it takes off the bound
        have pushed := (List.length_filter_le (fun p => !(id :: seen).contains p) _).trans
          (length_inputOpIds_le g (g.opAt id))
        have marks := walkBound_mark g marked (id :: stack)
        have moved : walkBound g (((g.inputOpIds (g.opAt id)).filter fun p =>
            !(id :: seen).contains p).reverse ++ stack) (id :: seen) + 1 ≤
              walkBound g (id :: stack) (id :: seen) + (g.opAt id).inputs.length := by
          simp only [walkBound, List.length_append, List.length_reverse, List.length_cons]
          omega
        omega

end Walk

/-- The walk is given its roots, plus every input of the graph, plus one steps: more than its
bound from the start. -/
theorem walkBound_initial_lt (g : Graph) (roots : List Nat) :
    walkBound g roots [] < roots.length + (g.ops.toList.map (·.inputs.length)).foldr (· + ·) 0 + 1 := by
  have inputs : (g.ops.toList.map (·.inputs.length)).foldr (· + ·) 0 =
      ((List.range g.opCount).map fun i => (g.opAt i).inputs.length).sum := by
    rw [← List.sum_eq_foldr, toList_eq_map_opAt, List.map_map]
    rfl
  simp [walkBound, inputs]

/-- The ancestors of roots: exactly the ops of the arena from which a root is reached along the
edges the walk follows, listed in arena order. -/
theorem mem_ancestorsOf_iff_reaches (g : Graph) (roots : List Nat) (i : Nat) :
    i ∈ g.ancestorsOf roots ↔ i < g.opCount ∧ g.ReachesRoot roots i := by
  obtain ⟨reach, rootsIn, closed⟩ := ancestorsLoop_spec _ (WalkInv.initial g roots)
    (walkBound_initial_lt g roots)
  -- the marks hold the roots and every producer of what they hold
  have marked : ∀ x, ∀ r ∈ roots, Relation.ReflTransGen g.ReadsFrom x r →
      x ∈ g.ancestorsLoop (roots.length + (g.ops.toList.map (·.inputs.length)).foldr (· + ·) 0 + 1)
        roots [] := by
    intro x r root path
    induction path using Relation.ReflTransGen.head_induction_on with
    | refl => exact rootsIn r root
    | head reads _ ih => exact closed _ ih _ reads
  simp only [ancestorsOf, List.mem_filter, List.mem_range, List.contains_iff_mem]
  constructor
  · rintro ⟨inRange, met⟩
    exact ⟨inRange, reach i met⟩
  · rintro ⟨inRange, r, root, path⟩
    exact ⟨inRange, marked i r root path⟩

/-- The ancestors of roots in a graph with distinct tensor names: exactly the ops of the arena
from which a root is reached along producer-to-consumer edges, listed in arena order. -/
theorem mem_ancestorsOf {g : Graph} (distinct : (tensorNames g.ops.toList).Nodup)
    (roots : List Nat) (i : Nat) :
    i ∈ g.ancestorsOf roots ↔
      i < g.opCount ∧ ∃ r ∈ roots, Relation.ReflTransGen (Feeds g.ops.toList) i r := by
  have edges : g.ReadsFrom = Feeds g.ops.toList := by
    funext p c
    exact propext (mem_inputOpIds_opAt distinct)
  rw [mem_ancestorsOf_iff_reaches, ReachesRoot, edges]

theorem ancestorsOf_increasing (g : Graph) (roots : List Nat) :
    (g.ancestorsOf roots).Pairwise (· < ·) :=
  List.pairwise_lt_range.filter _

end Graph

end OpGraph
