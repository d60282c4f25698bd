import OpGraph.Proofs.Graph.Order
import Mathlib.Data.Fintype.EquivFin
import Mathlib.Order.WellFounded

namespace OpGraph

namespace Topo

/-- The marks of a run of the sort: an op is marked exactly when it has been taken. -/
structure Marks (deps : Array (List Nat)) (taken : Array Bool) (done : List Nat) : Prop where
  size : taken.size = deps.size
  marked : ∀ i < deps.size, taken[i]? = some (decide (i ∈ done))
  bound : ∀ i ∈ done, i < deps.size

/-- Ops taken in this order after the ops of `done`: each untaken when taken, and after all of
its producers. -/
def ReadyFrom (deps : Array (List Nat)) : List Nat → List Nat → Prop
  | _, [] => True
  | done, i :: rest => i ∉ done ∧ (∀ p ∈ deps.getD i [], p ∈ done) ∧ ReadyFrom deps (i :: done) rest

theorem Marks.initial (deps : Array (List Nat)) : Marks deps (Array.replicate deps.size false) [] where
  size := by simp
  marked i inRange := by simp [inRange]
  bound _ member := by cases member

theorem Marks.getD_of_lt {deps : Array (List Nat)} {taken : Array Bool} {done : List Nat}
    (marks : Marks deps taken done) {i : Nat} (inRange : i < deps.size) (d : Bool) :
    taken.getD i d = decide (i ∈ done) := by
  simp [marks.marked i inRange]

theorem Marks.getD_of_le {deps : Array (List Nat)} {taken : Array Bool} {done : List Nat}
    (marks : Marks deps taken done) {i : Nat} (outside : deps.size ≤ i) (d : Bool) :
    taken.getD i d = d := by
  simp [Array.getElem?_eq_none (marks.size ▸ outside)]

theorem Marks.take {deps : Array (List Nat)} {taken : Array Bool} {done : List Nat}
    (marks : Marks deps taken done) {i : Nat} (inRange : i < deps.size) :
    Marks deps (taken.set! i true) (i :: done) where
  size := by simp [marks.size]
  marked j bound := by
    have before := marks.marked j bound
    simp only [Array.set!_eq_setIfInBounds, Array.getElem?_setIfInBounds, marks.size]
    by_cases same : i = j
    · subst same
      simp [inRange]
    · simp [same, before, Ne.symm same]
  bound j member := by
    rcases List.mem_cons.mp member with rfl | earlier
    · exact inRange
    · exact marks.bound j earlier

/-- What the sort takes next is untaken, in range, and has all its producers taken. -/
theorem nextReady_eq_some {deps : Array (List Nat)} {taken : Array Bool} {done : List Nat}
    (marks : Marks deps taken done) {i : Nat} (next : nextReady deps taken = some i) :
    i < deps.size ∧ i ∉ done ∧ ∀ p ∈ deps.getD i [], p ∈ done := by
  have inRange : i < deps.size := List.mem_range.mp (List.mem_of_find?_eq_some next)
  have ready := List.find?_some next
  simp only [Bool.and_eq_true, Bool.not_eq_true', List.all_eq_true] at ready
  obtain ⟨untaken, producers⟩ := ready
  refine ⟨inRange, by simpa [marks.getD_of_lt inRange] using untaken, fun p member => ?_⟩
  have takenP := producers p member
  by_cases pInRange : p < deps.size
  · simpa [marks.getD_of_lt pInRange] using takenP
  · simp [marks.getD_of_le (Nat.le_of_not_lt pInRange)] at takenP

/-- When the sort finds nothing to take, every untaken op has an untaken producer. -/
theorem nextReady_eq_none {deps : Array (List Nat)} {taken : Array Bool} {done : List Nat}
    (marks : Marks deps taken done) (stuck : nextReady deps taken = none) {i : Nat}
    (inRange : i < deps.size) (untaken : i ∉ done) : ∃ p ∈ deps.getD i [], p ∉ done := by
  have blocked := List.find?_eq_none.mp stuck i (List.mem_range.mpr inRange)
  simp only [marks.getD_of_lt inRange, untaken, decide_false, Bool.not_false, Bool.true_and,
    List.all_eq_true, not_forall] at blocked
  obtain ⟨p, member, untakenP⟩ := blocked
  refine ⟨p, member, fun doneP => untakenP ?_⟩
  simp [marks.getD_of_lt (marks.bound p doneP), doneP]

/-- A run of the sort: what it takes is a ready order after the taken ops, the marks follow, and it
stops only when it runs out of steps or finds nothing to take. -/
theorem takeReady_spec (deps : Array (List Nat)) (fuel : Nat) (taken : Array Bool)
    (acc : List Nat) (marks : Marks deps taken acc) :
    ∃ picks, (takeReady deps fuel taken acc).1 = acc.reverse ++ picks ∧ ReadyFrom deps acc picks ∧
      Marks deps (takeReady deps fuel taken acc).2 (picks.reverse ++ acc) ∧
      (picks.length = fuel ∨ nextReady deps (takeReady deps fuel taken acc).2 = none) := by
  induction fuel generalizing taken acc with
  | zero => exact ⟨[], by simp [takeReady], trivial, by simpa [takeReady] using marks, Or.inl rfl⟩
  | succ fuel ih =>
    cases next : nextReady deps taken with
    | none =>
      refine ⟨[], by simp [takeReady, next], trivial, ?_, Or.inr ?_⟩
      · simpa [takeReady, next] using marks
      · simp [takeReady, next]
    | some i =>
      obtain ⟨inRange, untaken, producers⟩ := nextReady_eq_some marks next
      have step : takeReady deps (fuel + 1) taken acc =
          takeReady deps fuel (taken.set! i true) (i :: acc) := by
        simp [takeReady, next]
      obtain ⟨picks, order, ready, marks', stop⟩ := ih (taken.set! i true) (i :: acc) (marks.take inRange)
      refine ⟨i :: picks, ?_, ⟨untaken, producers, ready⟩, ?_, ?_⟩
      · rw [step, order]
        simp
      · rw [step]
        simpa using marks'
      · rw [step]
        rcases stop with length | stuck
        · exact Or.inl (by simp [length])
        · exact Or.inr stuck

theorem ReadyFrom.nodup {deps : Array (List Nat)} {done picks : List Nat}
    (ready : ReadyFrom deps done picks) : picks.Nodup ∧ ∀ i ∈ picks, i ∉ done := by
  induction picks generalizing done with
  | nil => exact ⟨List.nodup_nil, by simp⟩
  | cons i rest ih =>
    obtain ⟨untaken, _, later⟩ := ready
    obtain ⟨nodup, fresh⟩ := ih later
    refine ⟨List.nodup_cons.mpr ⟨fun member => fresh i member List.mem_cons_self, nodup⟩, ?_⟩
    intro j member
    rcases List.mem_cons.mp member with rfl | after
    · exact untaken
    · exact fun doneJ => fresh j after (List.mem_cons_of_mem i doneJ)

/-- In a ready order every producer was taken before, or earlier in the order. -/
theorem ReadyFrom.producer_before {deps : Array (List Nat)} {done picks : List Nat}
    (ready : ReadyFrom deps done picks) {c : Nat} (member : c ∈ picks) {p : Nat}
    (producer : p ∈ deps.getD c []) : p ∈ done ∨ (p ∈ picks ∧ picks.idxOf p < picks.idxOf c) := by
  induction picks generalizing done with
  | nil => cases member
  | cons i rest ih =>
    have fresh := (ReadyFrom.nodup ready).1
    obtain ⟨_, producers, later⟩ := ready
    rcases List.mem_cons.mp member with rfl | after
    · exact Or.inl (producers p producer)
    · have other : i ≠ c := fun same => (List.nodup_cons.mp fresh).1 (same ▸ after)
      rcases ih later after with earlier | ⟨inRest, before⟩
      · rcases List.mem_cons.mp earlier with rfl | doneP
        · right
          refine ⟨List.mem_cons_self, ?_⟩
          rw [List.idxOf_cons_self, List.idxOf_cons_ne _ other]
          omega
        · exact Or.inl doneP
      · have otherP : i ≠ p := fun same => (List.nodup_cons.mp fresh).1 (same ▸ inRest)
        right
        refine ⟨List.mem_cons_of_mem i inRest, ?_⟩
        rw [List.idxOf_cons_ne _ other, List.idxOf_cons_ne _ otherP]
        omega

theorem readyOrder_eq (deps : List (List Nat)) : readyOrder deps =
    ((takeReady deps.toArray deps.toArray.size (Array.replicate deps.toArray.size false) []).1,
      (List.range deps.toArray.size).filter fun i =>
        !((takeReady deps.toArray deps.toArray.size
          (Array.replicate deps.toArray.size false) []).2.getD i true)) := rfl

/-- What the sort takes and what it leaves: the order taken is ready and within the arena, the
ops left are the others, and each op left has a producer that was never taken. -/
theorem readyOrder_spec (deps : List (List Nat)) :
    ReadyFrom deps.toArray [] (readyOrder deps).1 ∧ (∀ i ∈ (readyOrder deps).1, i < deps.length) ∧
      (∀ i, i ∈ (readyOrder deps).2 ↔ i < deps.length ∧ i ∉ (readyOrder deps).1) ∧
      ∀ i ∈ (readyOrder deps).2, ∃ p ∈ deps.toArray.getD i [], p ∉ (readyOrder deps).1 := by
  obtain ⟨picks, order, ready, marks, stop⟩ :=
    takeReady_spec deps.toArray deps.toArray.size _ [] (Marks.initial deps.toArray)
  simp only [List.reverse_nil, List.nil_append, List.append_nil] at order marks
  have left : ∀ i, i ∈ (readyOrder deps).2 ↔ i < deps.length ∧ i ∉ picks := by
    intro i
    by_cases inRange : i < deps.toArray.size
    · rw [readyOrder_eq, List.mem_filter, marks.getD_of_lt inRange]
      simp_all
    · rw [readyOrder_eq, List.mem_filter]
      simp_all
  rw [readyOrder_eq, order]
  rw [readyOrder_eq, order] at left
  refine ⟨ready, fun i member => by simpa using marks.bound i (by simpa using member), left, ?_⟩
  intro i member
  obtain ⟨inRange, untaken⟩ := (left i).mp member
  rcases stop with length | stuck
  · -- the sort took as many distinct ops as the arena has, so it left none
    have sub := (ReadyFrom.nodup ready).1.subperm fun j member =>
      List.mem_range.mpr (marks.bound j (by simpa using member))
    have perm := sub.perm_of_length_le (by simp [length])
    exact absurd (perm.mem_iff.mpr (List.mem_range.mpr (by simpa using inRange))) untaken
  · simpa using nextReady_eq_none marks stuck (by simpa using inRange) (by simpa using untaken)

/-- Without a cycle the sort leaves nothing: a left op minimal for the producer relation would
have a producer left too. -/
theorem readyOrder_left_eq_nil {deps : List (List Nat)}
    (acyclic : ∀ i, ¬ Relation.TransGen (fun p c => p ∈ deps.toArray.getD c []) i i)
    (closed : ∀ c p, p ∈ deps.toArray.getD c [] → p < deps.length) :
    (readyOrder deps).2 = [] := by
  obtain ⟨_, _, left, blocked⟩ := readyOrder_spec deps
  let below : Fin deps.length → Fin deps.length → Prop := fun a b =>
    Relation.TransGen (fun p c => p ∈ deps.toArray.getD c []) a.val b.val
  have : IsTrans (Fin deps.length) below := ⟨fun _ _ _ first second => first.trans second⟩
  have : Std.Irrefl below := ⟨fun a cycle => acyclic a.val cycle⟩
  refine List.eq_nil_iff_forall_not_mem.mpr fun i member => ?_
  obtain ⟨m, leftM, minimal⟩ := (Finite.wellFounded_of_trans_of_irrefl below).has_min
    {a | a.val ∈ (readyOrder deps).2} ⟨⟨i, ((left i).mp member).1⟩, member⟩
  obtain ⟨p, producer, untaken⟩ := blocked m.val leftM
  have inRange := closed _ p producer
  exact minimal ⟨p, inRange⟩ ((left p).mpr ⟨inRange, untaken⟩) (Relation.TransGen.single producer)

/-- The producer ids of a resolving arena with distinct tensors: one list per op, and `p` is
listed for `c` exactly when `p` feeds `c`. -/
theorem producerIds_spec {ops : List Op} (resolve : InputsResolve ops)
    (distinct : (tensorNames ops).Nodup) :
    ∃ deps, producerIds ops (Index.outputSlots ops) = .ok deps ∧ deps.length = ops.length ∧
      ∀ c p, p ∈ deps.toArray.getD c [] ↔ Feeds ops p c := by
  let producerOf : String → Nat := fun t =>
    ((Index.lookup (Index.outputSlots ops) t).map (·.op)).getD 0
  refine ⟨ops.map fun op => op.inputs.map producerOf, ?_, by simp, fun c p => ?_⟩
  · refine mapM_eq_ok_map _ fun op member => mapM_eq_ok_map _ fun t input => ?_
    obtain ⟨r, found⟩ := lookup_of_resolve resolve member input
    simp [producerOf, found]
  · by_cases inRange : c < ops.length
    · have atC : (ops.map fun op => op.inputs.map producerOf).toArray.getD c [] =
          (ops.getD c default).inputs.map producerOf := by
        simp [List.getD_eq_getElem?_getD, inRange]
      rw [atC, List.mem_map]
      constructor
      · rintro ⟨t, input, rfl⟩
        have member : ops.getD c default ∈ ops := by
          simp [List.getD_eq_getElem?_getD, inRange, List.getElem_mem]
        obtain ⟨r, found⟩ := lookup_of_resolve resolve member input
        simpa [producerOf, found] using feeds_of_lookup input found
      · intro feeds
        obtain ⟨t, input, slot, found⟩ := lookup_of_feeds distinct feeds
        exact ⟨t, input, by simp [producerOf, found]⟩
    · have atC : (ops.map fun op => op.inputs.map producerOf).toArray.getD c [] = [] := by
        simp [inRange]
      simp only [atC, List.not_mem_nil, false_iff]
      exact fun feeds => inRange feeds.lt_length.2

/-- When the sort leaves nothing, the order it took linearizes the arena. -/
theorem readyOrder_linearization {ops : List Op} {deps : List (List Nat)}
    (length : deps.length = ops.length) (feeds : ∀ c p, p ∈ deps.toArray.getD c [] ↔ Feeds ops p c)
    (none : (readyOrder deps).2 = []) : IsLinearization ops (readyOrder deps).1 := by
  obtain ⟨ready, bounded, left, _⟩ := readyOrder_spec deps
  have taken : ∀ i < ops.length, i ∈ (readyOrder deps).1 := by
    intro i inRange
    by_contra untaken
    simpa [none] using (left i).mpr ⟨length ▸ inRange, untaken⟩
  refine ⟨(List.perm_ext_iff_of_nodup (ReadyFrom.nodup ready).1 List.nodup_range).mpr fun i => ?_,
    fun c _ p _ feedsPC => ?_⟩
  · exact ⟨fun member => List.mem_range.mpr (length ▸ bounded i member),
      fun member => taken i (List.mem_range.mp member)⟩
  · rcases ready.producer_before (taken c feedsPC.lt_length.2) ((feeds c p).mpr feedsPC) with
      never | ⟨_, before⟩
    · cases never
    · exact before

/-- The sort of a resolving arena with distinct tensors succeeds on an acyclic arena with a
linearization of it, and fails with a cycle otherwise. -/
theorem sort_cases {ops : List Op} (resolve : InputsResolve ops)
    (distinct : (tensorNames ops).Nodup) :
    (Acyclic ops ∧ ∃ order, sort ops (Index.outputSlots ops) = .ok order ∧ IsLinearization ops order) ∨
      (¬ Acyclic ops ∧ ∃ names, sort ops (Index.outputSlots ops) = .error (.cycle names)) := by
  obtain ⟨deps, found, length, feeds⟩ := producerIds_spec resolve distinct
  have sorted : sort ops (Index.outputSlots ops) = if (readyOrder deps).2.isEmpty
      then .ok (readyOrder deps).1
      else .error (.cycle ((readyOrder deps).2.map fun i => (ops.getD i default).name)) := by
    simp only [sort, found]
    rfl
  by_cases acyclic : Acyclic ops
  · have relation : (fun p c => p ∈ deps.toArray.getD c []) = Feeds ops := by
      funext p c
      exact propext (feeds c p)
    have none : (readyOrder deps).2 = [] := readyOrder_left_eq_nil (relation ▸ acyclic)
      fun c p producer => length ▸ ((feeds c p).mp producer).lt_length.1
    exact Or.inl ⟨acyclic, _, by simp [sorted, none], readyOrder_linearization length feeds none⟩
  · -- were nothing left, the order taken would linearize the arena
    have some : (readyOrder deps).2 ≠ [] := fun none =>
      acyclic (readyOrder_linearization length feeds none).acyclic
    exact Or.inr ⟨acyclic, _, by rw [sorted, if_neg (by simpa [List.isEmpty_iff] using some)]⟩

end Topo

end OpGraph
