import OpGraph.Proofs.Graph.Restrict
import OpGraph.Proofs.Graph.Edit
import OpGraph.Proofs.Transform.Pipeline

namespace OpGraph

namespace Prune

variable {ks : List String} {g : Graph}

/-- The ops pruning starts from: the outputs and the ops of a kept type. -/
def Root (ks : List String) (g : Graph) (r : Nat) : Prop :=
  r ∈ g.outputs ∨ (r < g.opCount ∧ (g.opAt r).opType ∈ ks)

/-- An op of the arena from which a root is reached along producer-to-consumer edges. -/
def Live (ks : List String) (g : Graph) (i : Nat) : Prop :=
  i < g.opCount ∧ ∃ r, Root ks g r ∧ Relation.ReflTransGen (Feeds g.ops.toList) i r

theorem mem_live (valid : g.Valid) (i : Nat) : i ∈ live ks g ↔ Live ks g i := by
  simp only [live, Graph.mem_ancestorsOf valid.distinctTensors, Live, Root, List.mem_append,
    List.mem_filter, List.mem_range, List.contains_iff_mem]

theorem live_sublist (ks : List String) (g : Graph) : (live ks g).Sublist (List.range g.opCount) :=
  List.filter_sublist

theorem live_increasing (ks : List String) (g : Graph) : (live ks g).Pairwise (· < ·) :=
  Graph.ancestorsOf_increasing g _

theorem Live.of_feeds {p c : Nat} (live : Live ks g c) (feeds : Feeds g.ops.toList p c) :
    Live ks g p := by
  obtain ⟨-, r, root, path⟩ := live
  have bound : p < g.ops.toList.length := feeds.lt_length.1
  exact ⟨by simpa [Graph.opCount] using bound, r, root, path.head feeds⟩

theorem Live.of_output {o : Nat} (valid : g.Valid) (output : o ∈ g.outputs) : Live ks g o :=
  ⟨valid.outputsInRange o output, o, Or.inl output, .refl⟩

theorem live_length_le (ks : List String) (g : Graph) : (live ks g).length ≤ g.opCount := by
  simpa using (live_sublist ks g).length_le

/-- The live ops cover the arena as soon as every op of it is among them. -/
theorem live_length_of_forall (every : ∀ j ∈ List.range g.opCount, j ∈ live ks g) :
    (live ks g).length = g.opCount := by
  have covers := (List.nodup_range.subperm every).length_le
  exact Nat.le_antisymm (live_length_le ks g) (by simpa using covers)

/-- When every op is live, the live ops are the whole arena. -/
theorem live_eq_range (all : (live ks g).length = g.opCount) : live ks g = List.range g.opCount :=
  (live_sublist ks g).eq_of_length (by simp [all])

/-- An edit of `g` that has removed exactly the ops in `gone`, with nothing else done. -/
structure Removed (g : Graph) (gone : List Nat) (e : Edit) : Prop where
  inv : Edit.Inv g e
  slots : ∀ j, e.slots[j]? = g.ops[j]?.map fun op => if j ∈ gone then .removed else .kept op
  metadata : e.metadata = ⟨g.metadata.entries.filter fun x => x.op ∉ gone⟩
  outputNames : e.outputNames = none
  rewired : e.rewired = false
  removedAny : gone ≠ [] → e.removedAny = true

theorem removed_start (fits : g.metadata.Fits g.ops.size) : Removed g [] (Edit.start g) where
  inv := Edit.inv_start fits
  slots j := by simp [Edit.start]
  metadata := by simp [Edit.start]
  outputNames := rfl
  rewired := rfl
  removedAny nonempty := absurd rfl nonempty

section Remove

variable {gone : List Nat} {e : Edit}

theorem Removed.slot (removed : Removed g gone e) {i : Nat} (bound : i < g.opCount)
    (fresh : i ∉ gone) : e.slots[i]? = some (.kept (g.opAt i)) := by
  have inOps : i < g.ops.size := bound
  rw [removed.slots, Array.getElem?_eq_getElem inOps]
  simp [fresh, Graph.opAt, inOps]

/-- A slot still holding an op is a slot of the arena not removed, holding its own op. -/
theorem Removed.of_live_slot (removed : Removed g gone e) {j : Nat} {op : Op}
    (live : (e.slots[j]?).bind EditSlot.op? = some op) :
    j < g.opCount ∧ j ∉ gone ∧ op = g.opAt j := by
  obtain ⟨s, atJ, holds⟩ := Option.bind_eq_some_iff.mp live
  rw [removed.slots] at atJ
  obtain ⟨old, atOld, rfl⟩ := Option.map_eq_some_iff.mp atJ
  have fresh : j ∉ gone := by
    intro dead
    simp [dead, EditSlot.op?] at holds
  simp only [fresh, if_false, EditSlot.op?, Option.some.injEq] at holds
  refine ⟨(Array.getElem?_eq_some_iff.mp atOld).1, fresh, ?_⟩
  rw [← holds, Graph.opAt_of_getElem? (by simpa using atOld)]

theorem Removed.resolve (distinct : (opNames g.ops.toList).Nodup) (removed : Removed g gone e)
    {i : Nat} (bound : i < g.opCount) (fresh : i ∉ gone) : e.resolve (g.opAt i).name = .ok i := by
  simp [Edit.resolve, removed.inv.source, Graph.opId?_opAt_name distinct bound,
    removed.slot bound fresh]

/-- Removing an op that is still there succeeds, and the call removes one more op. -/
theorem Removed.remove (distinct : (opNames g.ops.toList).Nodup) (removed : Removed g gone e)
    {i : Nat} (bound : i < g.opCount) (fresh : i ∉ gone) :
    e.removeOp (g.opAt i).name = .ok (e.perform (.removeOp (g.opAt i).name), g.opAt i) ∧
      Removed g (i :: gone) (e.perform (.removeOp (g.opAt i).name)) := by
  have resolved := removed.resolve distinct bound fresh
  have live : (e.slots[i]?).bind EditSlot.op? = some (g.opAt i) := by
    simp [removed.slot bound fresh, EditSlot.op?]
  have performed : e.perform (.removeOp (g.opAt i).name) =
      { e with slots := e.slots.set! i .removed, metadata := e.metadata.removeOp i,
               removedAny := true } := by
    rw [Edit.perform, Edit.apply_removeOp, resolved]
    rfl
  rw [performed]
  refine ⟨?_, ⟨removed.inv.remove live, fun j => ?_, ?_, removed.outputNames, removed.rewired,
    fun _ => rfl⟩⟩
  · simp [Edit.removeOp, resolved, live, bind, Except.bind, pure, Except.pure]
  · rw [getElem?_set!_of_getElem? (removed.slot bound fresh), removed.slots]
    by_cases same : i = j
    · subst same
      have inOps : i < g.ops.size := bound
      simp [Array.getElem?_eq_getElem inOps]
    · simp [same, Ne.symm same]
  · simp only [Metadata.removeOp, removed.metadata, List.filter_filter, List.mem_cons, not_or]
    congr 2
    funext x
    by_cases same : x.op = i <;> simp [same]

/-- The calls that remove the ops of some ids by name. -/
def removeCalls (g : Graph) (ids : List Nat) : List EditCall :=
  ids.map fun i => .removeOp (g.opAt i).name

/-- Removing ops of the arena still there, one after another, removes all of them. -/
theorem Removed.removeAll (distinct : (opNames g.ops.toList).Nodup) :
    ∀ {ids gone : List Nat} {e : Edit}, Removed g gone e → (∀ i ∈ ids, i < g.opCount) →
      (ids ++ gone).Nodup → Removed g (ids.reverse ++ gone) (e.performAll (removeCalls g ids))
  | [], gone, e, removed, _, _ => by simpa [removeCalls, Edit.performAll] using removed
  | i :: rest, gone, e, removed, bound, nodup => by
    have fresh : i ∉ gone := fun member => (List.nodup_cons.mp nodup).1 (by simp [member])
    have next := (removed.remove distinct (bound i List.mem_cons_self) fresh).2
    have final := next.removeAll distinct (fun j member => bound j (List.mem_cons_of_mem i member))
      (List.nodup_middle.mpr nodup)
    simpa [removeCalls, Edit.performAll] using final

/-- The removal loop, for any body that removes the op of each id by name: when the ids are
ops of the arena still there, every removal succeeds, and the loop ends with the edit those
calls make. -/
theorem forIn_removes {R : Type} {body : Nat → Option R × Edit → Logged (ForInStep (Option R × Edit))}
    (distinct : (opNames g.ops.toList).Nodup)
    (behaves : ∀ i s e' op, s.2.removeOp (g.opAt i).name = .ok (e', op) →
      (body i s).value = .yield (none, e')) :
    ∀ {ids gone : List Nat} {e : Edit}, Removed g gone e → (∀ i ∈ ids, i < g.opCount) →
      (ids ++ gone).Nodup → (forIn ids (none, e) body).value = (none, e.performAll (removeCalls g ids))
  | [], gone, e, removed, _, _ => rfl
  | i :: rest, gone, e, removed, bound, nodup => by
    have fresh : i ∉ gone := fun member => (List.nodup_cons.mp nodup).1 (by simp [member])
    obtain ⟨step, next⟩ := removed.remove distinct (bound i List.mem_cons_self) fresh
    have loop := forIn_removes distinct behaves next
      (fun j member => bound j (List.mem_cons_of_mem i member)) (List.nodup_middle.mpr nodup)
    simp only [List.forIn_cons, Logged.bind_value, behaves i (none, e) _ _ step]
    simpa [removeCalls, Edit.performAll] using loop

end Remove

/-- The graph pruning should give: the live ops of `g` in arena order, with `g`'s order, outputs
and metadata restricted to them and renumbered. -/
structure Pruned (ks : List String) (g g' : Graph) : Prop where
  ops : g'.ops.toList = (live ks g).map g.opAt
  topo : g'.topo = g.topo.filterMap (live ks g).idxOf?
  outputs : g'.outputs = g.outputs.filterMap (live ks g).idxOf?
  metadata : g'.metadata = ⟨g.metadata.entries.filterMap (Metadata.relabel (live ks g).idxOf?)⟩
  valid : g'.Valid

section Finish

variable {gone : List Nat} {e : Edit}

/-- The ops removed are exactly the arena's ops that are not live. -/
def Complement (ks : List String) (g : Graph) (gone : List Nat) : Prop :=
  ∀ j < g.opCount, j ∈ gone ↔ j ∉ live ks g

theorem Removed.slots_toList (removed : Removed g gone e) :
    e.slots.toList = (List.range g.opCount).map fun j =>
      if j ∈ gone then .removed else .kept (g.opAt j) := by
  apply List.ext_getElem?
  intro j
  rw [Array.getElem?_toList, removed.slots, List.getElem?_map]
  by_cases inside : j < g.ops.size
  · rw [Array.getElem?_eq_getElem inside, List.getElem?_range (show j < g.opCount from inside)]
    simp [Graph.opAt, inside]
  · rw [Array.getElem?_eq_none (Nat.le_of_not_lt inside),
      List.getElem?_eq_none (by simpa [Graph.opCount] using inside)]
    rfl

theorem filter_mem_filter {l : List Nat} {p : Nat → Bool} :
    l.filter (fun j => decide (j ∈ l.filter p)) = l.filter p :=
  List.filter_congr fun j member => by simp [member]

theorem filter_mem_live (ks : List String) (g : Graph) :
    (List.range g.opCount).filter (fun j => decide (j ∈ live ks g)) = live ks g :=
  filter_mem_filter

theorem Removed.liveOps (removed : Removed g gone e) (complement : Complement ks g gone) :
    e.liveOps = (live ks g).map g.opAt := by
  -- the slots still holding an op are those of the live ids
  have kept : (List.range g.opCount).filter (fun j => decide (j ∉ gone)) = live ks g := by
    rw [← filter_mem_live ks g]
    apply List.filter_congr
    intro j member
    simp [complement j (List.mem_range.mp member)]
  rw [Edit.liveOps, removed.slots_toList, List.filterMap_map, ← kept, ← List.filterMap_eq_map,
    List.filterMap_filter]
  apply List.filterMap_congr
  intro j _
  by_cases dead : j ∈ gone <;> simp [dead, EditSlot.op?]

theorem live_nodup (ks : List String) (g : Graph) : (live ks g).Nodup :=
  (live_sublist ks g).nodup List.nodup_range

theorem Removed.newId (valid : g.Valid) (removed : Removed g gone e)
    (complement : Complement ks g gone) (j : Nat) : e.newId j = (live ks g).idxOf? j := by
  cases moved : e.newId j with
  | none =>
    -- a live id still holds its op, so it has a new id
    symm
    rw [List.idxOf?_eq_none_iff]
    intro member
    have bound : j < g.opCount := List.mem_range.mp ((live_sublist ks g).subset member)
    have fresh : j ∉ gone := fun dead => (complement j bound).mp dead member
    have slot := removed.slot bound fresh
    have found : e.newId j = some _ :=
      Edit.newId_eq_some.mpr ⟨g.opAt j, by simp [slot, EditSlot.op?], rfl⟩
    rw [moved] at found
    cases found
  | some k =>
    -- the new id of slot `j` holds slot `j`'s op, and names tell ops apart
    obtain ⟨op, slotOp, -⟩ := Edit.newId_eq_some.mp moved
    obtain ⟨bound, -, rfl⟩ := removed.of_live_slot slotOp
    have atK := Edit.getElem?_liveOps moved
    rw [slotOp, removed.liveOps complement, List.getElem?_map] at atK
    obtain ⟨m, atM, sameOp⟩ := Option.map_eq_some_iff.mp atK
    have inM : m ∈ live ks g := List.mem_of_getElem? atM
    have mBound : m < g.opCount := List.mem_range.mp ((live_sublist ks g).subset inM)
    have same : m = j := Graph.eq_of_opAt_name valid.distinctOps mBound bound (by rw [sameOp])
    subst same
    obtain ⟨inK, atKeep⟩ := List.getElem?_eq_some_iff.mp atM
    rw [idxOf?_eq_some_idxOf inM, ← atKeep, (live_nodup ks g).idxOf_getElem]

/-- The live ops hold the producer of every input they read. -/
theorem live_closed (valid : g.Valid) :
    ∀ c ∈ live ks g, ∀ p, Feeds g.ops.toList p c → p ∈ live ks g := fun c member p feeds =>
  (mem_live valid p).mpr (((mem_live valid c).mp member).of_feeds feeds)

theorem output_mem_live (valid : g.Valid) {o : Nat} (output : o ∈ g.outputs) : o ∈ live ks g :=
  (mem_live valid o).mpr (Live.of_output valid output)

/-- Finishing an edit that removed exactly the dead ops succeeds, with the pruned graph. -/
theorem Removed.pruned (valid : g.Valid) (fits : g.metadata.Fits g.ops.size)
    (removed : Removed g gone e) (nonempty : gone ≠ []) (complement : Complement ks g gone) :
    ∃ g' reuse, e.finish = .ok (g', reuse) ∧ Pruned ks g g' := by
  have liveOps := removed.liveOps complement
  have moved : e.newId = (live ks g).idxOf? := funext (removed.newId valid complement)
  have structural : ¬ e.OnlyMetadata := fun only => by
    simp [Edit.OnlyMetadata, removed.removedAny nonempty] at only
  have known : ∀ n ∈ (g.outputs.filter fun id => ((live ks g).idxOf? id).isSome).map
      (fun id => (g.opAt id).name), ∃ i ∈ live ks g, (g.opAt i).name = n := by
    intro n member
    obtain ⟨o, output, rfl⟩ := List.mem_map.mp member
    exact ⟨o, output_mem_live valid (List.mem_filter.mp output).1, rfl⟩
  have accepts := Graph.accepts_restrict (live_sublist ks g) valid (live_closed valid) known
  obtain ⟨g', built⟩ := (build_ok_iff_accepts_else_rejects _ _ _
    (e.metadata.remap (live ks g).idxOf?)).1.mpr accepts
  obtain ⟨reuse, done⟩ : ∃ reuse, e.finish = .ok (g', reuse) := Edit.finish_of_build structural (by
    rw [removed.outputNames, removed.rewired, removed.inv.source, liveOps, moved]
    exact built)
  have finished := removed.inv.finish_structural valid structural done
  -- entries of removed ops have no new id, so dropping them first changes nothing
  have dropped : (g.metadata.entries.filter fun x => x.op ∉ gone).filterMap
      (Metadata.relabel (live ks g).idxOf?) =
      g.metadata.entries.filterMap (Metadata.relabel (live ks g).idxOf?) := by
    rw [List.filterMap_filter]
    apply List.filterMap_congr
    intro x member
    by_cases dead : x.op ∈ gone
    · have notLive := (complement x.op (fits.inRange x member)).mp dead
      simp [dead, Metadata.relabel, List.idxOf?_eq_none_iff.mpr notLive]
    · simp [dead]
  refine ⟨g', reuse, done, ⟨finished.ops.trans liveOps, ?_, ?_, ?_, finished.valid⟩⟩
  · exact (build_eq_ok built).2.2.2.2.1 _ rfl
  · rw [finished.survivors removed.outputNames, moved]
  · rw [finished.metadata, removed.metadata, moved]
    exact congrArg Metadata.mk dropped

end Finish

/-- When every op is live, the graph is its own pruning. -/
theorem pruned_self (valid : g.Valid) (fits : g.metadata.Fits g.ops.size)
    (all : (live ks g).length = g.opCount) : Pruned ks g g := by
  have stays : ∀ j < g.opCount, (live ks g).idxOf? j = some j := fun j bound => by
    rw [live_eq_range all, idxOf?_range bound]
  refine ⟨by rw [live_eq_range all, Graph.toList_eq_map_opAt], ?_, ?_, ?_, valid⟩
  · rw [List.filterMap_congr (g := some), List.filterMap_some]
    intro j member
    exact stays j (by simpa [Graph.opCount] using (perm_range_iff.mp valid.topo.1).2.2 j member)
  · rw [List.filterMap_congr (g := some), List.filterMap_some]
    intro j member
    exact stays j (valid.outputsInRange j member)
  · rw [List.filterMap_congr (g := some), List.filterMap_some]
    intro x member
    simp [Metadata.relabel, stays x.op (fits.inRange x member)]

theorem run_of_no_outputs (empty : g.outputs = []) : (run ks g).value = .ok (g, .whole) := by
  simp [run, empty]

theorem run_of_all_live (nonempty : g.outputs ≠ []) (all : (live ks g).length = g.opCount) :
    (run ks g).value = .ok (g, .whole) := by
  simp [run, nonempty, all]

/-- Pruning a graph with outputs succeeds, with the pruned graph: the all-live shortcut and the
removal loop agree. -/
theorem run_pruned (valid : g.Valid) (fits : g.metadata.Fits g.ops.size)
    (nonempty : g.outputs ≠ []) :
    ∃ g' reuse, (run ks g).value = .ok (g', reuse) ∧ Pruned ks g g' := by
  by_cases all : (live ks g).length = g.opCount
  · exact ⟨g, .whole, run_of_all_live nonempty all, pruned_self valid fits all⟩
  -- some op is dead: the loop removes the dead ops, and finishing gives the pruned graph
  set dead := (List.range g.opCount).filter (fun i => !(live ks g).contains i) with deadDef
  have bounds : ∀ i ∈ dead, i < g.opCount := fun i member =>
    List.mem_range.mp (List.mem_filter.mp member).1
  have nodup : (dead ++ []).Nodup := by simpa using List.nodup_range.filter _
  have complement : Complement ks g (dead.reverse ++ []) := by
    intro j bound
    simp [deadDef, bound]
  have someDead : dead ≠ [] := by
    intro none
    have every : ∀ j ∈ List.range g.opCount, j ∈ live ks g := by
      intro j member
      simpa using List.filter_eq_nil_iff.mp none j member
    exact all (live_length_of_forall every)
  have removed := (removed_start fits).removeAll valid.distinctOps bounds nodup
  obtain ⟨g', reuse, done, pruned⟩ :=
    removed.pruned valid fits (by simpa using someDead) complement
  refine ⟨g', reuse, ?_, pruned⟩
  have isEmpty : g.outputs.isEmpty = false := by simpa using nonempty
  simp only [run, isEmpty, all, Bool.false_eq_true, if_false, Logged.bind_value]
  rw [forIn_removes valid.distinctOps ?_ (removed_start fits) bounds nodup]
  · exact done
  · intro i s e' op step
    simp only [Logged.bind_value, step]
    rfl

section Pruned

variable {g' : Graph}

theorem Pruned.opCount (pruned : Pruned ks g g') : g'.opCount = (live ks g).length := by
  rw [Graph.opCount, ← Array.length_toList, pruned.ops, List.length_map]

/-- A live op keeps its record, at its rank among the live ops. -/
theorem Pruned.opAt (pruned : Pruned ks g g') {i : Nat} (member : i ∈ live ks g) :
    g'.opAt ((live ks g).idxOf i) = g.opAt i := by
  rw [← Graph.getD_toList, pruned.ops, Graph.getD_map_opAt member]

theorem Pruned.mem_outputs (pruned : Pruned ks g g') (valid : g.Valid) {o : Nat}
    (output : o ∈ g.outputs) : (live ks g).idxOf o ∈ g'.outputs := by
  rw [pruned.outputs]
  exact List.mem_filterMap.mpr ⟨o, output, idxOf?_eq_some_idxOf (output_mem_live valid output)⟩

/-- The roots of `g` are roots of the pruned graph, renumbered. -/
theorem Pruned.root (pruned : Pruned ks g g') (valid : g.Valid) {r : Nat} (root : Root ks g r) :
    Root ks g' ((live ks g).idxOf r) := by
  rcases root with output | ⟨bound, kept⟩
  · exact Or.inl (pruned.mem_outputs valid output)
  · have member : r ∈ live ks g := (mem_live valid r).mpr ⟨bound, r, Or.inr ⟨bound, kept⟩, .refl⟩
    refine Or.inr ⟨?_, ?_⟩
    · rw [pruned.opCount]
      exact List.idxOf_lt_length_of_mem member
    · rwa [pruned.opAt member]

/-- Every op of the pruned graph is live in it: its path to a root runs through live ops only,
and each of its edges is an edge of the pruned graph. -/
theorem Pruned.live_all (pruned : Pruned ks g g') (valid : g.Valid) {k : Nat}
    (bound : k < g'.opCount) : Live ks g' k := by
  have inLive : k < (live ks g).length := pruned.opCount ▸ bound
  have member : (live ks g)[k] ∈ live ks g := List.getElem_mem inLive
  obtain ⟨-, r, root, path⟩ := (mem_live valid _).mp member
  -- induction on the path to the root, from its head
  have mapped : ∀ m, Relation.ReflTransGen (Feeds g.ops.toList) m r →
      Relation.ReflTransGen (Feeds g'.ops.toList) ((live ks g).idxOf m) ((live ks g).idxOf r) := by
    intro m toRoot
    induction toRoot using Relation.ReflTransGen.head_induction_on with
    | refl => exact .refl
    | @head a c edge rest ih =>
      have liveNext : Live ks g c :=
        ⟨by simpa [Graph.opCount] using edge.lt_length.2, r, root, rest⟩
      have liveHead := liveNext.of_feeds edge
      rw [← mem_live valid] at liveNext liveHead
      have mappedEdge : Feeds g'.ops.toList ((live ks g).idxOf a) ((live ks g).idxOf c) := by
        rw [pruned.ops, Graph.feeds_map_opAt_iff liveHead liveNext]
        exact edge
      exact .head mappedEdge ih
  refine ⟨bound, _, pruned.root valid root, ?_⟩
  have atK : (live ks g).idxOf (live ks g)[k] = k := (live_nodup ks g).idxOf_getElem k inLive
  simpa [atK] using mapped _ path

/-- In the pruned graph every op is live. -/
theorem Pruned.live_length (pruned : Pruned ks g g') (valid : g.Valid) :
    (live ks g').length = g'.opCount := by
  apply live_length_of_forall
  intro j member
  exact (mem_live pruned.valid j).mpr (pruned.live_all valid (List.mem_range.mp member))

theorem Pruned.outputs_ne_nil (pruned : Pruned ks g g') (valid : g.Valid)
    (nonempty : g.outputs ≠ []) : g'.outputs ≠ [] := by
  obtain ⟨o, output⟩ := List.exists_mem_of_ne_nil _ nonempty
  exact List.ne_nil_of_mem (pruned.mem_outputs valid output)

/-- The pruned graph names the same output ops. -/
theorem Pruned.outputNames (pruned : Pruned ks g g') (valid : g.Valid) :
    g'.outputNames = g.outputNames := by
  have renumbered : g.outputs.filterMap (live ks g).idxOf? = g.outputs.map (live ks g).idxOf := by
    rw [← List.filterMap_eq_map]
    apply List.filterMap_congr
    intro o output
    exact idxOf?_eq_some_idxOf (output_mem_live valid output)
  rw [Graph.outputNames, Graph.outputNames, pruned.outputs, renumbered, List.map_map]
  apply List.map_congr_left
  intro o output
  simp [pruned.opAt (output_mem_live valid output)]

/-- Pruning the pruned graph again changes nothing. -/
theorem Pruned.rerun (pruned : Pruned ks g g') (valid : g.Valid) (nonempty : g.outputs ≠ []) :
    (run ks g').value = .ok (g', .whole) :=
  run_of_all_live (pruned.outputs_ne_nil valid nonempty) (pruned.live_length valid)

end Pruned

end Prune

/-- Pruning keeps exactly the ops from which an output or a kept type is reached, in arena order and
unchanged, restricts the order, outputs and metadata to them, leaves a graph without outputs as it
is, and changes nothing when run again. -/
theorem prune_keeps_exactly_live_ops (ks : List String) {g : Graph} (valid : g.Valid)
    (fits : g.metadata.Fits g.ops.size) :
    (g.outputs = [] → (Prune.run ks g).value = .ok (g, .whole)) ∧
      (∀ i, i ∈ Prune.live ks g ↔ Prune.Live ks g i) ∧ (Prune.live ks g).Pairwise (· < ·) ∧
      (g.outputs ≠ [] → ∃ g' reuse, (Prune.run ks g).value = .ok (g', reuse) ∧
        g'.ops.toList = (Prune.live ks g).map g.opAt ∧
        g'.topo = g.topo.filterMap (Prune.live ks g).idxOf? ∧
        g'.outputNames = g.outputNames ∧
        g'.metadata = ⟨g.metadata.entries.filterMap (Metadata.relabel (Prune.live ks g).idxOf?)⟩ ∧
        (Prune.run ks g').value = .ok (g', .whole)) := by
  refine ⟨Prune.run_of_no_outputs, Prune.mem_live valid, Prune.live_increasing ks g,
    fun nonempty => ?_⟩
  obtain ⟨g', reuse, done, pruned⟩ := Prune.run_pruned valid fits nonempty
  exact ⟨g', reuse, done, pruned.ops, pruned.topo, pruned.outputNames valid, pruned.metadata,
    pruned.rerun valid nonempty⟩

/-- `x` feeds the output `y` and a dead branch `d`, which carries metadata. -/
def deadBranchGraph : Graph :=
  ⟨#[⟨"x", "Placeholder", [], [⟨"x:0", .float, ⟨none⟩⟩], []⟩,
     ⟨"y", "Relu", ["x:0"], [⟨"y:0", .float, ⟨none⟩⟩], []⟩,
     ⟨"d", "Relu", ["x:0"], [⟨"d:0", .float, ⟨none⟩⟩], []⟩], [0, 2, 1], [1],
    ⟨[⟨2, ⟨"notes", by decide⟩, "seen", .flag true⟩]⟩⟩

theorem deadBranch_pruned_once :
    deadBranchGraph.Valid ∧ deadBranchGraph.metadata.Fits deadBranchGraph.ops.size ∧
      ∃ g' reuse, (Prune.run [] deadBranchGraph).value = .ok (g', reuse) ∧
        g'.ops.toList = [deadBranchGraph.opAt 0, deadBranchGraph.opAt 1] ∧
        g'.topo = [0, 1] ∧ g'.metadata = ⟨[]⟩ ∧ (Prune.run [] g').value = .ok (g', .whole) := by
  have valid : deadBranchGraph.Valid :=
    ⟨by decide, by decide, by decide, by decide, by decide, by decide⟩
  have fits : deadBranchGraph.metadata.Fits deadBranchGraph.ops.size := ⟨by decide, by decide⟩
  obtain ⟨-, -, -, pruned⟩ := prune_keeps_exactly_live_ops [] valid fits
  obtain ⟨g', reuse, done, ops, topo, -, metadata, again⟩ := pruned (by decide)
  have alive : Prune.live [] deadBranchGraph = [0, 1] := by decide
  refine ⟨valid, fits, g', reuse, done, by rw [ops, alive]; rfl, ?_, ?_, again⟩
  · rw [topo, alive]
    decide
  · rw [metadata, alive]
    decide

end OpGraph
