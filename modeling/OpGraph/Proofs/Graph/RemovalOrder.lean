import OpGraph.Proofs.Graph.LeastOrder
import OpGraph.Proofs.Graph.Restrict
import OpGraph.Proofs.Graph.Edit
import OpGraph.Proofs.Snapshot.RoundTrip

namespace OpGraph

/-- Numbering the members of an increasing list by their position keeps their order. -/
theorem orderPreserving_idxOf? {l : List Nat} (increasing : l.Pairwise (· < ·)) :
    Metadata.OrderPreserving l.idxOf? := by
  intro a b i j atA atB
  obtain ⟨inI, rfl, -⟩ := List.idxOf?_eq_some_iff.mp atA
  obtain ⟨inJ, rfl, -⟩ := List.idxOf?_eq_some_iff.mp atB
  have forward : i < j → l[i] < l[j] := List.pairwise_iff_getElem.mp increasing i j inI inJ
  have backward : j < i → l[j] < l[i] := List.pairwise_iff_getElem.mp increasing j i inJ inI
  constructor
  · intro lt
    rcases Nat.lt_trichotomy i j with before | rfl | after
    · exact before
    · exact absurd lt (Nat.lt_irrefl _)
    · exact absurd (backward after) (Nat.lt_asymm lt)
  · exact forward

/-- With distinct tensor names, a tensor has one producer. -/
theorem eq_of_produces {ops : List Op} (distinct : (tensorNames ops).Nodup) {p q : Nat} {t : String}
    (inP : p < ops.length) (inQ : q < ops.length)
    (atP : t ∈ (ops.getD p default).outputs.map (·.name))
    (atQ : t ∈ (ops.getD q default).outputs.map (·.name)) : p = q := by
  have located : ∀ {i}, i < ops.length → t ∈ (ops.getD i default).outputs.map (·.name) →
      ∃ slot, Index.lookup (Index.outputSlots ops) t = some ⟨i, slot⟩ := by
    intro i inI atI
    obtain ⟨tensor, produced, named⟩ := List.mem_map.mp atI
    obtain ⟨slot, atSlot⟩ := List.mem_iff_getElem?.mp produced
    have atOp : ops[i]? = some (ops.getD i default) := by
      rw [List.getD_eq_getElem?_getD, List.getElem?_eq_getElem inI, Option.getD_some]
    exact ⟨slot, Index.lookup_eq_some_of_mem distinct
      (Index.mem_outputSlots.mpr ⟨_, tensor, atOp, atSlot, named⟩)⟩
  obtain ⟨slotP, foundP⟩ := located inP atP
  obtain ⟨slotQ, foundQ⟩ := located inQ atQ
  rw [foundP, Option.some.injEq] at foundQ
  exact congrArg TensorRef.op foundQ

namespace Topo

/-- Least-ready picks restricted to ops closed under producers and renumbered in order are the
least-ready picks of the ops kept. An op ready among the kept ones has all its producers kept and
taken, so it was ready in the whole arena, where the pick was no larger. -/
theorem LeastFrom.restrict {deps deps' : Array (List Nat)} {f : Nat → Option Nat}
    (mono : Metadata.OrderPreserving f)
    (onto : ∀ j' < deps'.size, ∃ j < deps.size, f j = some j')
    (closed : ∀ c c', f c = some c' → ∀ p ∈ deps.getD c [],
      ∃ p', f p = some p' ∧ p' ∈ deps'.getD c' []) :
    ∀ {done picks : List Nat}, LeastFrom deps done picks →
      LeastFrom deps' (done.filterMap f) (picks.filterMap f)
  | _, [], _ => trivial
  | done, i :: rest, least => by
    have later := LeastFrom.restrict mono onto closed least.2
    cases atI : f i with
    | none => simpa [List.filterMap_cons, atI] using later
    | some i' =>
      rw [List.filterMap_cons, atI]
      refine ⟨fun j' inRange untaken ready => ?_, by simpa [List.filterMap_cons, atI] using later⟩
      obtain ⟨j, jRange, atJ⟩ := onto j' inRange
      have fresh : j ∉ done := fun doneJ => untaken (List.mem_filterMap.mpr ⟨j, doneJ, atJ⟩)
      -- every producer of `j` is kept, and taken once its new id is
      have readyJ : ∀ p ∈ deps.getD j [], p ∈ done := by
        intro p producer
        obtain ⟨p', atP, edge⟩ := closed j j' atJ p producer
        obtain ⟨q, doneQ, atQ⟩ := List.mem_filterMap.mp (ready p' edge)
        have same : q = p := (mono.eq atQ atP).mpr rfl
        exact same ▸ doneQ
      rcases Nat.lt_or_eq_of_le (least.1 j jRange fresh readyJ) with lt | same
      · exact Nat.le_of_lt ((mono i j i' j' atI atJ).mp lt)
      · subst same
        rw [atI, Option.some.injEq] at atJ
        exact Nat.le_of_eq atJ

/-- The sort's order takes the least ready op at each step. -/
theorem sort_leastFrom {ops : List Op} {deps : List (List Nat)}
    (found : producerIds ops (Index.outputSlots ops) = .ok deps) {order : List Nat}
    (sorted : sort ops (Index.outputSlots ops) = .ok order) : LeastFrom deps.toArray [] order := by
  rw [sort_eq_of_producerIds found] at sorted
  split at sorted
  · cases sorted
    obtain ⟨picks, taken, least⟩ := takeReady_least deps.toArray deps.toArray.size _ []
      (Marks.initial deps.toArray)
    have same : (readyOrder deps).1 = picks := by simpa [readyOrder_eq] using taken
    rw [same]
    exact least
  · cases sorted

/-- A linearization that takes the least ready op at each step is the sort's order: of two such
orders neither is lexicographically below the other. -/
theorem sort_eq_of_leastFrom {ops : List Op} (resolve : InputsResolve ops)
    (distinct : (tensorNames ops).Nodup) {deps : List (List Nat)}
    (found : producerIds ops (Index.outputSlots ops) = .ok deps) {order : List Nat}
    (linear : IsLinearization ops order) (least : LeastFrom deps.toArray [] order) :
    sort ops (Index.outputSlots ops) = .ok order := by
  obtain ⟨deps', found', length, feeds⟩ := producerIds_spec resolve distinct
  rw [found, Except.ok.injEq] at found'
  subst found'
  rcases sort_cases resolve distinct with ⟨-, computed, sorted, computedLinear⟩ | ⟨cyclic, -⟩
  · have computedLeast := sort_leastFrom found sorted
    have bound : ∀ {w : List Nat}, IsLinearization ops w → ∀ j ∈ w, j < deps.toArray.size :=
      fun {w} linearW j member => by
        simpa [length] using (perm_range_iff.mp linearW.1).2.2 j member
    have sameLength : computed.length = order.length := by
      rw [(perm_range_iff.mp computedLinear.1).1, (perm_range_iff.mp linear.1).1]
    have notBelow : ¬ List.Lex (· < ·) computed order :=
      least.not_lex (readyFrom_of_linearization feeds computedLinear) (bound computedLinear)
        sameLength
    have notAbove : ¬ List.Lex (· < ·) order computed :=
      computedLeast.not_lex (readyFrom_of_linearization feeds linear) (bound linear)
        sameLength.symm
    rw [sorted, List.le_antisymm notBelow notAbove]
  · exact absurd linear.acyclic cyclic

end Topo

namespace Graph

/-- A valid graph holding the order the sort computes is what building its ops and output names
gives, apart from the metadata. -/
theorem make_of_sorted {g : Graph} (valid : g.Valid)
    (sorted : Topo.sort g.ops.toList (Index.outputSlots g.ops.toList) = .ok g.topo) :
    Graph.make g.ops.toList g.outputNames = .ok { g with metadata := .empty } := by
  rcases build_cases g.ops.toList g.outputNames none Metadata.empty with
    ⟨-, topo, built, -, -⟩ | ⟨rejected, -⟩
  · have same : topo = g.topo := by
      have again := build_none_sorted built
      rw [sorted, Except.ok.injEq] at again
      exact again.symm
    rw [Graph.make, built, same, valid.outputNames_idxOf]
  · exact absurd (valid.accepts (show OrderFits g.ops.toList none from valid.topo.acyclic)) rejected

section Restrict

variable {g : Graph} {keep : List Nat} (sub : keep.Sublist (List.range g.opCount))
include sub

/-- The sort of a valid graph's ops restricted to a set closed under producers is the graph's
sorted order restricted to that set and renumbered. -/
theorem sort_restrict (valid : g.Valid)
    (sorted : Topo.sort g.ops.toList (Index.outputSlots g.ops.toList) = .ok g.topo)
    (closed : ∀ c ∈ keep, ∀ p, Feeds g.ops.toList p c → p ∈ keep) :
    Topo.sort (keep.map g.opAt) (Index.outputSlots (keep.map g.opAt)) =
      .ok (g.topo.filterMap keep.idxOf?) := by
  have nodup : keep.Nodup := sub.nodup List.nodup_range
  have accepts : Accepts (keep.map g.opAt) [] (some (g.topo.filterMap keep.idxOf?)) :=
    accepts_restrict sub valid closed (by simp)
  obtain ⟨deps, found, length, feeds⟩ := Topo.producerIds_spec valid.resolve valid.distinctTensors
  obtain ⟨deps', found', length', feeds'⟩ :=
    Topo.producerIds_spec accepts.resolve accepts.distinctTensors
  have renumbered : ∀ i ∈ keep, keep.idxOf? i = some (keep.idxOf i) := fun i member =>
    idxOf?_eq_some_idxOf member
  have mono : Metadata.OrderPreserving keep.idxOf? :=
    orderPreserving_idxOf? (List.pairwise_lt_range.sublist sub)
  -- every kept op is the image of an op of the arena
  have onto : ∀ j' < deps'.toArray.size, ∃ j < deps.toArray.size, keep.idxOf? j = some j' := by
    intro j' inRange
    have inKeep : j' < keep.length := by simpa [length'] using inRange
    have member := List.getElem_mem inKeep
    refine ⟨keep[j'], ?_, ?_⟩
    · simpa [length, opCount] using List.mem_range.mp (sub.subset member)
    · rw [renumbered _ member, nodup.idxOf_getElem]
  -- a producer of a kept op is kept, and the edge between them is an edge among the kept ops
  have edges : ∀ c c', keep.idxOf? c = some c' → ∀ p ∈ deps.toArray.getD c [],
      ∃ p', keep.idxOf? p = some p' ∧ p' ∈ deps'.toArray.getD c' [] := by
    intro c c' atC p producer
    have inC : c ∈ keep := by
      obtain ⟨inKeep, atKeep, -⟩ := List.idxOf?_eq_some_iff.mp atC
      exact atKeep ▸ List.getElem_mem inKeep
    have edge := (feeds c p).mp producer
    have inP := closed c inC p edge
    refine ⟨keep.idxOf p, renumbered p inP, (feeds' c' (keep.idxOf p)).mpr ?_⟩
    rw [renumbered c inC, Option.some.injEq] at atC
    rw [← atC, feeds_map_opAt_iff inP inC]
    exact edge
  have least := (Topo.sort_leastFrom found sorted).restrict mono onto edges
  exact Topo.sort_eq_of_leastFrom accepts.resolve accepts.distinctTensors found'
    (linearization_restrict sub valid.topo) least

/-- Kept ops whose inputs are all produced among them hold the producer of everything they read. -/
theorem closed_of_resolve (valid : g.Valid) (resolve : InputsResolve (keep.map g.opAt)) :
    ∀ c ∈ keep, ∀ p, Feeds g.ops.toList p c → p ∈ keep := by
  intro c inC p edge
  have pBound := edge.lt_length.1
  obtain ⟨t, input, output⟩ := edge
  rw [getD_toList] at input
  have produced := resolve (g.opAt c) (List.mem_map.mpr ⟨c, inC, rfl⟩) t input
  obtain ⟨op, kept, atOp⟩ := mem_tensorNames.mp produced
  obtain ⟨q, inQ, rfl⟩ := List.mem_map.mp kept
  have qBound : q < g.ops.toList.length := by
    simpa [opCount] using List.mem_range.mp (sub.subset inQ)
  have same := eq_of_produces valid.distinctTensors pBound qBound output (by rwa [getD_toList])
  exact same ▸ inQ

end Restrict

end Graph

/-- Whether a call leaves the wiring alone: it neither replaces nor inserts an op. -/
def EditCall.keepsWiring : EditCall → Bool
  | .replaceOp _ | .insertOp _ => false
  | _ => true

namespace Edit

/-- An edit of `g` that has at most removed ops: each slot holds `g`'s op at its id or nothing,
and nothing was replaced or inserted. -/
structure Thinned (g : Graph) (e : Edit) : Prop where
  source : e.source = g
  size : e.slots.size = g.ops.size
  slot : ∀ j (s : EditSlot), e.slots[j]? = some s → s = .kept (g.opAt j) ∨ s = .removed
  rewired : e.rewired = false
  untouched : e.removedAny = false → e.slots = g.ops.map .kept

/-- The ids of the slots still holding an op, in slot order. -/
def keptIds (e : Edit) : List Nat :=
  (List.range e.slots.size).filter fun j => ((e.slots[j]?).bind EditSlot.op?).isSome

section Thinned

variable {g : Graph} {e : Edit}

theorem thinned_start (g : Graph) : Thinned g (start g) where
  source := rfl
  size := by simp [start]
  slot j s atJ := by
    obtain ⟨op, atOp, rfl⟩ := Option.map_eq_some_iff.mp (by simpa [start] using atJ)
    exact Or.inl (by rw [Graph.opAt_of_getElem? (by simpa using atOp)])
  rewired := rfl
  untouched _ := rfl

theorem Thinned.remove (thin : Thinned g e) {id : Nat} {op : Op}
    (live : (e.slots[id]?).bind EditSlot.op? = some op) :
    Thinned g { e with slots := e.slots.set! id .removed, metadata := e.metadata.removeOp id,
                       removedAny := true } := by
  obtain ⟨old, atId, -⟩ := Option.bind_eq_some_iff.mp live
  refine ⟨thin.source, by simpa using thin.size, fun j s atJ => ?_, thin.rewired,
    fun removed => by cases removed⟩
  rw [getElem?_set!_of_getElem? atId] at atJ
  split at atJ
  · cases atJ
    exact Or.inr rfl
  · exact thin.slot j s atJ

/-- A call that keeps the wiring keeps an edit thinned. -/
theorem Thinned.perform (thin : Thinned g e) {c : EditCall} (keeps : c.keepsWiring = true) :
    Thinned g (e.perform c) := by
  cases c with
  | setMeta name ns kind v =>
    cases resolved : e.resolve name with
    | error err => rw [perform_of_error (by rw [apply_setMeta, resolved]; rfl)]; exact thin
    | ok id =>
      rw [perform_of_ok (by rw [apply_setMeta, resolved]; rfl)]
      exact ⟨thin.source, thin.size, thin.slot, thin.rewired, thin.untouched⟩
  | setMetaById id ns kind v =>
    rw [perform_of_ok rfl]
    exact ⟨thin.source, thin.size, thin.slot, thin.rewired, thin.untouched⟩
  | removeOp name =>
    cases resolved : e.resolve name with
    | error err => rw [perform_of_error (by rw [apply_removeOp, resolved]; rfl)]; exact thin
    | ok id =>
      rw [perform_of_ok (by rw [apply_removeOp, resolved]; rfl)]
      exact thin.remove (resolve_eq_ok resolved).2.choose_spec
  | replaceOp op => cases keeps
  | insertOp op => cases keeps
  | setOutputs names =>
    rw [perform_of_ok rfl]
    exact ⟨thin.source, thin.size, thin.slot, thin.rewired, thin.untouched⟩

theorem Thinned.performAll (thin : Thinned g e) {calls : List EditCall}
    (keeps : ∀ c ∈ calls, c.keepsWiring = true) : Thinned g (e.performAll calls) := by
  induction calls generalizing e with
  | nil => exact thin
  | cons c rest ih =>
    exact ih (thin.perform (keeps c List.mem_cons_self)) fun c' member =>
      keeps c' (List.mem_cons_of_mem c member)

theorem Thinned.keptIds_sublist (thin : Thinned g e) : e.keptIds.Sublist (List.range g.opCount) := by
  rw [keptIds, thin.size]
  exact List.filter_sublist

/-- A slot holding an op is a slot of `g` holding `g`'s op. -/
theorem Thinned.of_live_slot (thin : Thinned g e) {j : Nat} {op : Op}
    (live : (e.slots[j]?).bind EditSlot.op? = some op) :
    j ∈ e.keptIds ∧ op = g.opAt j := by
  obtain ⟨s, atJ, holds⟩ := Option.bind_eq_some_iff.mp live
  have inRange : j < e.slots.size := (Array.getElem?_eq_some_iff.mp atJ).1
  refine ⟨List.mem_filter.mpr ⟨List.mem_range.mpr inRange, by simp [live]⟩, ?_⟩
  rcases thin.slot j s atJ with rfl | rfl
  · simpa [EditSlot.op?] using holds.symm
  · cases holds

theorem Thinned.slot_of_kept (thin : Thinned g e) {j : Nat} (kept : j ∈ e.keptIds) :
    e.slots[j]? = some (.kept (g.opAt j)) := by
  obtain ⟨inRange, live⟩ := List.mem_filter.mp kept
  obtain ⟨op, holds⟩ := Option.isSome_iff_exists.mp live
  obtain ⟨s, atJ, slotOp⟩ := Option.bind_eq_some_iff.mp holds
  rcases thin.slot j s atJ with rfl | rfl
  · exact atJ
  · cases slotOp

theorem Thinned.slots_toList (thin : Thinned g e) :
    e.slots.toList = (List.range g.opCount).map fun j =>
      if j ∈ e.keptIds then .kept (g.opAt j) else .removed := by
  apply List.ext_getElem?
  intro j
  rw [Array.getElem?_toList, List.getElem?_map]
  by_cases inside : j < g.opCount
  · have inSlots : j < e.slots.size := by rw [thin.size]; exact inside
    have atJ : e.slots[j]? = some e.slots[j] := Array.getElem?_eq_getElem inSlots
    rw [List.getElem?_range inside]
    by_cases kept : j ∈ e.keptIds
    · simp [thin.slot_of_kept kept, kept]
    · rcases thin.slot j _ atJ with same | same
      · refine absurd (List.mem_filter.mpr ⟨List.mem_range.mpr inSlots, ?_⟩) kept
        simp [atJ, same, EditSlot.op?]
      · simp [atJ, same, kept]
  · rw [Array.getElem?_eq_none (by rw [thin.size]; exact Nat.le_of_not_lt inside),
      List.getElem?_eq_none (by simpa using Nat.le_of_not_lt inside)]
    rfl

/-- The ops left are `g`'s ops at the kept ids, in arena order. -/
theorem Thinned.liveOps (thin : Thinned g e) : e.liveOps = e.keptIds.map g.opAt := by
  have kept : (List.range g.opCount).filter (fun j => decide (j ∈ e.keptIds)) = e.keptIds := by
    have range : e.keptIds = (List.range g.opCount).filter
        fun j => ((e.slots[j]?).bind EditSlot.op?).isSome := by
      rw [keptIds, thin.size]
      rfl
    rw [range]
    exact List.filter_congr fun j member => by simp [member]
  conv_rhs => rw [← kept]
  rw [Edit.liveOps, thin.slots_toList, List.filterMap_map, ← List.filterMap_eq_map,
    List.filterMap_filter]
  apply List.filterMap_congr
  intro j _
  by_cases member : j ∈ e.keptIds <;> simp [member, EditSlot.op?]

/-- Slots hold their ops by id: with distinct op names, the new id of a slot is its rank among
the kept ids. -/
theorem Thinned.newId (distinct : (opNames g.ops.toList).Nodup) (thin : Thinned g e) (j : Nat) :
    e.newId j = e.keptIds.idxOf? j := by
  cases moved : e.newId j with
  | none =>
    -- a kept id still holds its op, so it has a new id
    symm
    rw [List.idxOf?_eq_none_iff]
    intro kept
    have found : e.newId j = some _ :=
      newId_eq_some.mpr ⟨g.opAt j, by simp [thin.slot_of_kept kept, EditSlot.op?], rfl⟩
    rw [moved] at found
    cases found
  | some k =>
    -- the new id of slot `j` holds `j`'s op, and names tell ops apart
    obtain ⟨op, slotOp, -⟩ := newId_eq_some.mp moved
    obtain ⟨kept, rfl⟩ := thin.of_live_slot slotOp
    have atK := getElem?_liveOps moved
    rw [slotOp, thin.liveOps, List.getElem?_map] at atK
    obtain ⟨m, atM, sameOp⟩ := Option.map_eq_some_iff.mp atK
    have inM : m ∈ e.keptIds := List.mem_of_getElem? atM
    have mBound : m < g.opCount := List.mem_range.mp (thin.keptIds_sublist.subset inM)
    have jBound : j < g.opCount := List.mem_range.mp (thin.keptIds_sublist.subset kept)
    have same : m = j := Graph.eq_of_opAt_name distinct mBound jBound (by rw [sameOp])
    subst same
    obtain ⟨inK, atKeep⟩ := List.getElem?_eq_some_iff.mp atM
    rw [idxOf?_eq_some_idxOf inM, ← atKeep,
      (thin.keptIds_sublist.nodup List.nodup_range).idxOf_getElem]

/-- With nothing removed every slot is kept. -/
theorem Thinned.keptIds_of_untouched (thin : Thinned g e) (untouched : e.removedAny = false) :
    e.keptIds = List.range g.opCount := by
  apply thin.keptIds_sublist.eq_of_length
  rw [keptIds, List.length_range, List.filter_eq_self.mpr, List.length_range, thin.size]
  · rfl
  · intro j member
    have inside : j < g.ops.size := thin.size ▸ List.mem_range.mp member
    simp [thin.untouched untouched, inside, EditSlot.op?]

end Thinned

end Edit

open Edit in
/-- Removing ops keeps the computed order: when the source's order is the sorted one and no op is
replaced or inserted, the result's order is the source's restricted and renumbered, which is what
the sort computes, so the result is the graph built from its ops and outputs. -/
theorem removal_order_is_computed_order (g : Graph) (valid : g.Valid)
    (sorted : Topo.sort g.ops.toList (Index.outputSlots g.ops.toList) = .ok g.topo)
    (calls : List EditCall) (keeps : ∀ c ∈ calls, c.keepsWiring = true)
    {g' : Graph} {reuse : Reuse} (done : ((start g).performAll calls).finish = .ok (g', reuse)) :
    let e := (start g).performAll calls
    g'.ops.toList = e.keptIds.map g.opAt ∧ g'.topo = g.topo.filterMap e.keptIds.idxOf? ∧
      Topo.sort g'.ops.toList (Index.outputSlots g'.ops.toList) = .ok g'.topo ∧
      Graph.make g'.ops.toList g'.outputNames = .ok { g' with metadata := .empty } := by
  intro e
  have thin : Thinned g e := (thinned_start g).performAll keeps
  have sub := thin.keptIds_sublist
  -- either path of finishing keeps `g`'s ops at the kept ids and restricts `g`'s order to them
  have kept : g'.ops.toList = e.keptIds.map g.opAt ∧ g'.topo = g.topo.filterMap e.keptIds.idxOf? ∧
      g'.Valid ∧ ∀ c ∈ e.keptIds, ∀ p, Feeds g.ops.toList p c → p ∈ e.keptIds := by
    by_cases only : e.OnlyMetadata
    · rw [finish_of_onlyMetadata only, thin.source, Except.ok.injEq, Prod.mk.injEq] at done
      obtain ⟨rfl, -⟩ := done
      have all := thin.keptIds_of_untouched only.1
      have stays : g.topo.filterMap (List.range g.opCount).idxOf? = g.topo := by
        rw [List.filterMap_congr (g := some), List.filterMap_some]
        intro j member
        exact idxOf?_range ((perm_range_iff.mp valid.topo.1).2.2 j member)
      refine ⟨by rw [all]; exact Graph.toList_eq_map_opAt g, by rw [all, stays],
        ⟨valid.distinctOps, valid.distinctTensors, valid.resolve, valid.topo, valid.outputsDistinct,
          valid.outputsInRange⟩, fun c _ p edge => ?_⟩
      rw [all]
      exact List.mem_range.mpr edge.lt_length.1
    · have built := build_of_finish only done
      rw [thin.rewired, thin.source, thin.liveOps, funext (thin.newId valid.distinctOps)] at built
      obtain ⟨accepts, ops, -, -, topo, valid'⟩ := build_eq_ok built
      exact ⟨by simp [ops], topo _ rfl, valid', Graph.closed_of_resolve sub valid accepts.resolve⟩
  obtain ⟨ops, topo, valid', closed⟩ := kept
  have sorted' : Topo.sort g'.ops.toList (Index.outputSlots g'.ops.toList) = .ok g'.topo := by
    rw [ops, topo]
    exact Graph.sort_restrict sub valid sorted closed
  exact ⟨ops, topo, sorted', Graph.make_of_sorted valid' sorted'⟩

/-- `relu` reads `add`, which reads `x` twice, and `dead` reads `x` too; the arena lists
consumers first. -/
def readerFirstGraph : Graph :=
  ⟨#[⟨"relu", "Relu", ["add:0"], [⟨"relu:0", .float, ⟨none⟩⟩], []⟩,
     ⟨"add", "Add", ["x:0", "x:0"], [⟨"add:0", .float, ⟨none⟩⟩], []⟩,
     ⟨"x", "Placeholder", [], [⟨"x:0", .float, ⟨none⟩⟩], []⟩,
     ⟨"dead", "Relu", ["x:0"], [⟨"dead:0", .float, ⟨none⟩⟩], []⟩], [2, 1, 0, 3], [0], ⟨[]⟩⟩

/-- Remove `dead` and name the output. -/
def dropDeadCalls : List EditCall := [.removeOp "dead", .setOutputs ["relu"]]

def readerFirstPruned : Graph :=
  ⟨#[⟨"relu", "Relu", ["add:0"], [⟨"relu:0", .float, ⟨none⟩⟩], []⟩,
     ⟨"add", "Add", ["x:0", "x:0"], [⟨"add:0", .float, ⟨none⟩⟩], []⟩,
     ⟨"x", "Placeholder", [], [⟨"x:0", .float, ⟨none⟩⟩], []⟩], [2, 1, 0], [0], ⟨[]⟩⟩

theorem readerFirst_removal_keeps_sorted :
    readerFirstGraph.Valid ∧
      Topo.sort readerFirstGraph.ops.toList (Index.outputSlots readerFirstGraph.ops.toList) =
        .ok readerFirstGraph.topo ∧
      (∀ c ∈ dropDeadCalls, c.keepsWiring = true) ∧
      ((Edit.start readerFirstGraph).performAll dropDeadCalls).finish =
        .ok (readerFirstPruned, .records ["relu", "add", "x"]) ∧
      Topo.sort readerFirstPruned.ops.toList (Index.outputSlots readerFirstPruned.ops.toList) =
        .ok [2, 1, 0] := by
  have valid : readerFirstGraph.Valid :=
    ⟨by decide, by decide, by decide, by decide, by decide, by decide⟩
  have sorted : Topo.sort readerFirstGraph.ops.toList
      (Index.outputSlots readerFirstGraph.ops.toList) = .ok readerFirstGraph.topo := by decide
  have keeps : ∀ c ∈ dropDeadCalls, c.keepsWiring = true := by decide
  have done : ((Edit.start readerFirstGraph).performAll dropDeadCalls).finish =
      .ok (readerFirstPruned, .records ["relu", "add", "x"]) := by decide +kernel
  obtain ⟨-, -, sorted', -⟩ :=
    removal_order_is_computed_order readerFirstGraph valid sorted dropDeadCalls keeps done
  exact ⟨valid, sorted, keeps, done, sorted'⟩

end OpGraph
