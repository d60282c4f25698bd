import OpGraph.Proofs.Graph.Ancestors

namespace OpGraph

theorem idxOf?_eq_some_idxOf {l : List Nat} {a : Nat} (member : a ∈ l) :
    l.idxOf? a = some (l.idxOf a) :=
  List.findIdx?_eq_some_of_exists ⟨a, member, by simp⟩

theorem idxOf?_range {n j : Nat} (bound : j < n) : (List.range n).idxOf? j = some j := by
  rw [idxOf?_eq_some_idxOf (List.mem_range.mpr bound)]
  have inRange : j < (List.range n).length := by simpa using bound
  have atJ : (List.range n)[j] = j := List.getElem_range _
  conv_lhs => rw [← atJ]
  rw [List.nodup_range.idxOf_getElem]

/-- Renumbering a list by a one-to-one partial map keeps the order of what it keeps. -/
theorem idxOf_filterMap_lt {f : Nat → Option Nat}
    (injective : ∀ a b k, f a = some k → f b = some k → a = b) :
    ∀ {l : List Nat} {a b a' b' : Nat}, a ∈ l → f a = some a' → f b = some b' →
      l.idxOf a < l.idxOf b → (l.filterMap f).idxOf a' < (l.filterMap f).idxOf b'
  | [], _, _, _, _, member, _, _, _ => by cases member
  | x :: rest, a, b, a', b', member, fa, fb, before => by
    have apart : a' ≠ b' := fun same => by
      have := injective a b a' fa (same ▸ fb)
      subst this
      exact Nat.lt_irrefl _ before
    by_cases atX : x = a
    · subst atX
      simp [fa, apart]
    · have notB : x ≠ b := fun same => by
        subst same
        simp at before
      have inRest : a ∈ rest := (List.mem_cons.mp member).resolve_left (Ne.symm atX)
      rw [List.idxOf_cons_ne _ atX, List.idxOf_cons_ne _ notB] at before
      have later := idxOf_filterMap_lt injective inRest fa fb (by omega)
      cases fx : f x with
      | none => simpa [fx] using later
      | some x' =>
        have otherA : x' ≠ a' := fun same => atX (injective x a a' (same ▸ fx) fa)
        have otherB : x' ≠ b' := fun same => notB (injective x b b' (same ▸ fx) fb)
        simp only [List.filterMap_cons, fx, List.idxOf_cons_ne _ otherA, List.idxOf_cons_ne _ otherB]
        omega

namespace Graph

/-- Distinct op names tell the ops of the arena apart. -/
theorem eq_of_opAt_name {g : Graph} (distinct : (opNames g.ops.toList).Nodup) {a b : Nat}
    (inA : a < g.opCount) (inB : b < g.opCount) (same : (g.opAt a).name = (g.opAt b).name) :
    a = b := by
  rw [← idxOf_opAt_name distinct inA, ← idxOf_opAt_name distinct inB, same]

/-- With distinct op names, an op's name finds its own id. -/
theorem opId?_opAt_name {g : Graph} (distinct : (opNames g.ops.toList).Nodup) {i : Nat}
    (bound : i < g.opCount) : g.opId? (g.opAt i).name = some i := by
  have inOps : i < g.ops.size := bound
  rw [opId?, Array.findIdx?_eq_some_iff_getElem]
  refine ⟨inOps, by simp [opAt, inOps], fun j before same => ?_⟩
  have named : (g.opAt j).name = (g.opAt i).name := by
    simpa [opAt, Nat.lt_trans before inOps] using same
  have := eq_of_opAt_name distinct (Nat.lt_trans before bound) bound named
  omega

section Restrict

variable {g : Graph} {keep : List Nat}

theorem getD_map_opAt {i : Nat} (member : i ∈ keep) :
    (keep.map g.opAt).getD (keep.idxOf i) default = g.opAt i := by
  rw [List.getD_eq_getElem?_getD, List.getElem?_map,
    List.getElem?_eq_getElem (List.idxOf_lt_length_of_mem member)]
  simp

/-- Between kept ops the edges are the graph's, renumbered. -/
theorem feeds_map_opAt_iff {a b : Nat} (inA : a ∈ keep) (inB : b ∈ keep) :
    Feeds (keep.map g.opAt) (keep.idxOf a) (keep.idxOf b) ↔ Feeds g.ops.toList a b := by
  simp only [Feeds, getD_map_opAt inA, getD_map_opAt inB, getD_toList]

/-- Every edge of the kept ops is an edge of the graph between two kept ops. -/
theorem feeds_of_feeds_map_opAt (nodup : keep.Nodup) {p c : Nat}
    (feeds : Feeds (keep.map g.opAt) p c) :
    ∃ a ∈ keep, ∃ b ∈ keep, p = keep.idxOf a ∧ c = keep.idxOf b ∧ Feeds g.ops.toList a b := by
  obtain ⟨inP, inC⟩ := feeds.lt_length
  simp only [List.length_map] at inP inC
  have atP : keep.idxOf keep[p] = p := nodup.idxOf_getElem p inP
  have atC : keep.idxOf keep[c] = c := nodup.idxOf_getElem c inC
  refine ⟨keep[p], List.getElem_mem inP, keep[c], List.getElem_mem inC, atP.symm, atC.symm, ?_⟩
  rw [← feeds_map_opAt_iff (List.getElem_mem inP) (List.getElem_mem inC), atP, atC]
  exact feeds

variable (sub : keep.Sublist (List.range g.opCount))
include sub

/-- The graph's order restricted to the kept ops and renumbered is a linearization of them. -/
theorem linearization_restrict {order : List Nat} (linear : IsLinearization g.ops.toList order) :
    IsLinearization (keep.map g.opAt) (order.filterMap keep.idxOf?) := by
  have nodup : keep.Nodup := sub.nodup List.nodup_range
  have injective : ∀ a b k, keep.idxOf? a = some k → keep.idxOf? b = some k → a = b := by
    intro a b k ha hb
    obtain ⟨inA, atA, -⟩ := List.idxOf?_eq_some_iff.mp ha
    obtain ⟨inB, atB, -⟩ := List.idxOf?_eq_some_iff.mp hb
    rw [← atA, ← atB]
  have renumbered : ∀ i ∈ keep, keep.idxOf? i = some (keep.idxOf i) := fun i member =>
    idxOf?_eq_some_idxOf member
  refine ⟨(List.perm_ext_iff_of_nodup ((perm_range_iff.mp linear.1).2.1.filterMap injective)
    List.nodup_range).mpr fun k => ?_, fun c inC p inP feeds => ?_⟩
  · simp only [List.mem_filterMap, List.mem_range, List.length_map]
    constructor
    · rintro ⟨i, -, found⟩
      exact (List.idxOf?_eq_some_iff.mp found).1
    · intro inK
      have inRange : keep[k] < g.opCount :=
        List.mem_range.mp (sub.subset (List.getElem_mem inK))
      refine ⟨keep[k], linear.1.mem_iff.mpr (by simpa [opCount] using inRange), ?_⟩
      rw [renumbered _ (List.getElem_mem inK), nodup.idxOf_getElem k inK]
  · obtain ⟨a, inA, b, inB, rfl, rfl, edge⟩ := feeds_of_feeds_map_opAt nodup feeds
    have bounds := edge.lt_length
    exact idxOf_filterMap_lt injective (linear.1.mem_iff.mpr (List.mem_range.mpr bounds.1))
      (renumbered a inA) (renumbered b inB) (linear.2 b bounds.2 a bounds.1 edge)

/-- Kept ops that hold the producer of every input they read pass every check of building, with
the graph's order restricted to them and output names of kept ops. -/
theorem accepts_restrict (valid : g.Valid)
    (closed : ∀ c ∈ keep, ∀ p, Feeds g.ops.toList p c → p ∈ keep) {names : List String}
    (known : ∀ n ∈ names, ∃ i ∈ keep, (g.opAt i).name = n) :
    Accepts (keep.map g.opAt) names (some (g.topo.filterMap keep.idxOf?)) where
  distinctOps := by
    have whole := valid.distinctOps
    rw [toList_eq_map_opAt] at whole
    exact whole.sublist ((sub.map g.opAt).map _)
  distinctTensors := by
    have whole := valid.distinctTensors
    rw [toList_eq_map_opAt] at whole
    exact whole.sublist ((sub.map g.opAt).flatMap _)
  resolve := by
    intro op member t input
    obtain ⟨c, inC, rfl⟩ := List.mem_map.mp member
    have inRange : c < g.opCount := List.mem_range.mp (sub.subset inC)
    -- the producer of the input is kept with its consumer
    have produced := valid.resolve _ (List.mem_of_getElem? (getElem?_toList_opAt inRange)) t input
    obtain ⟨r, found⟩ := Topo.lookup_of_resolve valid.resolve
      (List.mem_of_getElem? (getElem?_toList_opAt inRange)) input
    have feeds : Feeds g.ops.toList r.op c := feeds_of_lookup (by rwa [getD_toList]) found
    obtain ⟨op, producer, output⟩ := mem_tensorNames.mp produced
    obtain ⟨-, tensor, atSlot, named⟩ := tensorRef?_eq_some found
    refine mem_tensorNames.mpr ⟨g.opAt r.op, List.mem_map.mpr ⟨r.op, closed c inC _ feeds, rfl⟩, ?_⟩
    exact List.mem_map.mpr ⟨tensor, List.mem_of_getElem? atSlot, named⟩
  order := linearization_restrict sub valid.topo
  known n named := by
    obtain ⟨i, inI, rfl⟩ := known n named
    exact List.mem_map.mpr ⟨g.opAt i, List.mem_map.mpr ⟨i, inI, rfl⟩, rfl⟩

end Restrict

end Graph

end OpGraph
