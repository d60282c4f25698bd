import OpGraph.Proofs.Graph.Kahn

namespace OpGraph

/-- Op `i` lies on a cycle of producer-to-consumer edges or is reachable from one. -/
def BelowCycle (ops : List Op) (i : Nat) : Prop :=
  ∃ j, Relation.TransGen (Feeds ops) j j ∧ Relation.ReflTransGen (Feeds ops) j i

/-- Every element of a set that always has a predecessor in the set is downstream of a cycle,
when the set is bounded: following predecessors must come back to an element already met. -/
theorem below_cycle_of_blocked {r : Nat → Nat → Prop} {S : Nat → Prop} {n : Nat}
    (bound : ∀ a, S a → a < n) (blocked : ∀ a, S a → ∃ p, S p ∧ r p a) {a : Nat} (member : S a) :
    ∃ j, Relation.TransGen r j j ∧ Relation.ReflTransGen r j a := by
  by_contra noCycle
  -- above `a` and off every cycle, the strict ancestor relation is well founded on the bound
  let below : Fin n → Fin n → Prop := fun x y =>
    Relation.TransGen r x.val y.val ∧ Relation.ReflTransGen r y.val a
  have : IsTrans (Fin n) below :=
    ⟨fun _ _ _ first second => ⟨first.1.trans second.1, second.2⟩⟩
  have : Std.Irrefl below := ⟨fun x loop => noCycle ⟨x.val, loop.1, loop.2⟩⟩
  obtain ⟨m, ⟨inS, toA⟩, minimal⟩ := (Finite.wellFounded_of_trans_of_irrefl below).has_min
    {x | S x.val ∧ Relation.ReflTransGen r x.val a} ⟨⟨a, bound a member⟩, member, .refl⟩
  obtain ⟨p, inSP, edge⟩ := blocked m.val inS
  exact minimal ⟨p, bound p inSP⟩ ⟨inSP, toA.head edge⟩ ⟨.single edge, toA⟩

/-- No rearrangement of a strictly increasing list is lexicographically below it. -/
theorem not_lex_of_perm_of_increasing :
    ∀ {l m : List Nat}, l.Pairwise (· < ·) → m.Perm l → ¬ List.Lex (· < ·) m l
  | [], _, _, _ => fun below => by cases below
  | _ :: _, [], _, perm => absurd perm.length_eq (by simp)
  | a :: l, b :: m, increasing, perm => by
    obtain ⟨least, rest⟩ := List.pairwise_cons.mp increasing
    rw [List.cons_lex_cons_iff]
    rintro (lt | ⟨rfl, below⟩)
    · -- `b` is one of `a :: l`, none of which is below `a`
      rcases List.mem_cons.mp (perm.mem_iff.mp List.mem_cons_self) with same | later
      · exact Nat.lt_irrefl _ (same ▸ lt)
      · exact Nat.lt_asymm lt (least b later)
    · exact not_lex_of_perm_of_increasing rest perm.cons_inv below

namespace Topo

/-- Ops taken in this order after the ops of `done`, each the least op ready when taken: no op
below it in range was untaken with all of its producers taken. -/
def LeastFrom (deps : Array (List Nat)) : List Nat → List Nat → Prop
  | _, [] => True
  | done, i :: rest => (∀ j < deps.size, j ∉ done → (∀ p ∈ deps.getD j [], p ∈ done) → i ≤ j) ∧
      LeastFrom deps (i :: done) rest

/-- Nothing the sort could take lies below what it takes next. -/
theorem nextReady_least {deps : Array (List Nat)} {taken : Array Bool} {done : List Nat}
    (marks : Marks deps taken done) {i : Nat} (next : nextReady deps taken = some i) :
    ∀ j < deps.size, j ∉ done → (∀ p ∈ deps.getD j [], p ∈ done) → i ≤ j := by
  intro j inRange untaken ready
  by_contra above
  -- the search over ids in increasing order passed `j` before it reached `i`
  have passed := (List.find?_range_eq_some.mp next).2.2 j (Nat.lt_of_not_le above)
  simp only [marks.getD_of_lt inRange, untaken, decide_false, Bool.not_false, Bool.true_and,
    Bool.not_eq_true', List.all_eq_false] at passed
  obtain ⟨p, producer, untakenP⟩ := passed
  have doneP := ready p producer
  simp [marks.getD_of_lt (marks.bound p doneP), doneP] at untakenP

/-- Every op the sort takes is the least one ready at its turn. -/
theorem takeReady_least (deps : Array (List Nat)) (fuel : Nat) (taken : Array Bool)
    (acc : List Nat) (marks : Marks deps taken acc) :
    ∃ picks, (takeReady deps fuel taken acc).1 = acc.reverse ++ picks ∧ LeastFrom deps acc picks := by
  induction fuel generalizing taken acc with
  | zero => exact ⟨[], by simp [takeReady], trivial⟩
  | succ fuel ih =>
    cases next : nextReady deps taken with
    | none => exact ⟨[], by simp [takeReady, next], trivial⟩
    | some i =>
      obtain ⟨inRange, -, -⟩ := nextReady_eq_some marks next
      obtain ⟨picks, order, least⟩ := ih (taken.set! i true) (i :: acc) (marks.take inRange)
      have step : takeReady deps (fuel + 1) taken acc =
          takeReady deps fuel (taken.set! i true) (i :: acc) := by
        simp [takeReady, next]
      refine ⟨i :: picks, ?_, nextReady_least marks next, least⟩
      rw [step, order]
      simp

/-- The exchange argument: no ready order of the same length within range is lexicographically
below an order of least ready ops. At the first place where they differ both take a ready op, and
the least one ready is the smaller. -/
theorem LeastFrom.not_lex {deps : Array (List Nat)} :
    ∀ {done picks w : List Nat}, LeastFrom deps done picks → ReadyFrom deps done w →
      (∀ j ∈ w, j < deps.size) → w.length = picks.length → ¬ List.Lex (· < ·) w picks
  | _, [], [], _, _, _, _ => fun below => by cases below
  | _, [], _ :: _, _, _, _, length => absurd length (by simp)
  | _, _ :: _, [], _, _, _, length => absurd length (by simp)
  | done, i :: rest, j :: w, least, ready, bound, length => by
    obtain ⟨untaken, producers, readyRest⟩ := ready
    have le : i ≤ j := least.1 j (bound j List.mem_cons_self) untaken producers
    rw [List.cons_lex_cons_iff]
    rintro (lt | ⟨rfl, below⟩)
    · exact Nat.lt_irrefl _ (Nat.lt_of_lt_of_le lt le)
    · exact LeastFrom.not_lex least.2 readyRest
        (fun k member => bound k (List.mem_cons_of_mem _ member)) (by simpa using length) below

/-- An order is ready when it repeats nothing, takes nothing done, and puts each producer among
the done ops or earlier in the order. -/
theorem readyFrom_of_before {deps : Array (List Nat)} :
    ∀ {done w : List Nat}, w.Nodup → (∀ x ∈ w, x ∉ done) →
      (∀ x ∈ w, ∀ p ∈ deps.getD x [], p ∈ done ∨ (p ∈ w ∧ w.idxOf p < w.idxOf x)) →
      ReadyFrom deps done w
  | _, [], _, _, _ => trivial
  | done, x :: w, nodup, fresh, before => by
    obtain ⟨notLater, nodupRest⟩ := List.nodup_cons.mp nodup
    refine ⟨fresh x List.mem_cons_self, fun p producer => ?_, ?_⟩
    · rcases before x List.mem_cons_self p producer with done | ⟨_, earlier⟩
      · exact done
      · simp at earlier
    · refine readyFrom_of_before nodupRest (fun y member => ?_) (fun y member p producer => ?_)
      · intro doneY
        rcases List.mem_cons.mp doneY with rfl | doneY
        · exact notLater member
        · exact fresh y (List.mem_cons_of_mem x member) doneY
      · have other : x ≠ y := fun same => notLater (same ▸ member)
        rcases before y (List.mem_cons_of_mem x member) p producer with doneP | ⟨inW, earlier⟩
        · exact .inl (List.mem_cons_of_mem x doneP)
        · by_cases atX : p = x
          · exact .inl (atX ▸ List.mem_cons_self)
          · have inRest : p ∈ w := (List.mem_cons.mp inW).resolve_left atX
            rw [List.idxOf_cons_ne _ (Ne.symm atX), List.idxOf_cons_ne _ other] at earlier
            exact .inr ⟨inRest, by omega⟩

/-- A linearization is a ready order from nothing taken. -/
theorem readyFrom_of_linearization {ops : List Op} {deps : List (List Nat)}
    (feeds : ∀ c p, p ∈ deps.toArray.getD c [] ↔ Feeds ops p c) {order : List Nat}
    (linear : IsLinearization ops order) : ReadyFrom deps.toArray [] order := by
  obtain ⟨-, nodup, bound⟩ := perm_range_iff.mp linear.1
  refine readyFrom_of_before nodup (by simp) fun c inOrder p producer => .inr ⟨?_, ?_⟩
  · have edge := (feeds c p).mp producer
    exact linear.1.mem_iff.mpr (List.mem_range.mpr edge.lt_length.1)
  · have edge := (feeds c p).mp producer
    exact linear.2 c (bound c inOrder) p edge.lt_length.1 edge

/-- Along a ready order from nothing, every ancestor of a taken op was taken before it. -/
theorem ReadyFrom.ancestor_before {deps : Array (List Nat)} {picks : List Nat}
    (ready : ReadyFrom deps [] picks) {p c : Nat}
    (path : Relation.TransGen (fun p c => p ∈ deps.getD c []) p c) (taken : c ∈ picks) :
    p ∈ picks ∧ picks.idxOf p < picks.idxOf c := by
  induction path with
  | single edge =>
    rcases ready.producer_before taken edge with never | before
    · cases never
    · exact before
  | tail _ edge ih =>
    rcases ready.producer_before taken edge with never | ⟨takenB, before⟩
    · cases never
    · obtain ⟨takenP, earlier⟩ := ih takenB
      exact ⟨takenP, Nat.lt_trans earlier before⟩

/-- The ops the sort leaves are exactly those on a cycle of the producer relation or downstream
of one. -/
theorem readyOrder_left_iff {deps : List (List Nat)}
    (closed : ∀ c p, p ∈ deps.toArray.getD c [] → p < deps.length) (i : Nat) :
    i ∈ (readyOrder deps).2 ↔ ∃ j, Relation.TransGen (fun p c => p ∈ deps.toArray.getD c []) j j ∧
      Relation.ReflTransGen (fun p c => p ∈ deps.toArray.getD c []) j i := by
  obtain ⟨ready, _, left, blocked⟩ := readyOrder_spec deps
  constructor
  · intro member
    refine below_cycle_of_blocked (fun a leftA => ((left a).mp leftA).1) (fun a leftA => ?_) member
    obtain ⟨p, producer, untaken⟩ := blocked a leftA
    exact ⟨p, (left p).mpr ⟨closed a p producer, untaken⟩, producer⟩
  · rintro ⟨j, cycle, down⟩
    -- a consumer lies in range, since ids past the arena read nothing
    have consumerInRange : ∀ {p c}, p ∈ deps.toArray.getD c [] → c < deps.length := by
      intro p c producer
      by_contra outside
      simp [outside] at producer
    have inRange : i < deps.length := by
      rcases Relation.ReflTransGen.cases_tail down with rfl | ⟨b, _, edge⟩
      · obtain ⟨b, _, edge⟩ := Relation.TransGen.tail'_iff.mp cycle
        exact consumerInRange edge
      · exact consumerInRange edge
    refine (left i).mpr ⟨inRange, fun taken => ?_⟩
    -- then the cycle's op `j` was taken too, before itself
    have takenJ : j ∈ (readyOrder deps).1 := by
      rcases Relation.reflTransGen_iff_eq_or_transGen.mp down with rfl | path
      · exact taken
      · exact (ready.ancestor_before path taken).1
    exact Nat.lt_irrefl _ (ready.ancestor_before cycle takenJ).2

/-- How the sort of an arena answers, read off the ready order and the ops it leaves. -/
theorem sort_eq_of_producerIds {ops : List Op} {deps : List (List Nat)}
    (found : producerIds ops (Index.outputSlots ops) = .ok deps) :
    sort ops (Index.outputSlots ops) = if (readyOrder deps).2.isEmpty
      then .ok (readyOrder deps).1
      else .error (.cycle ((readyOrder deps).2.map fun i => (ops.getD i default).name)) := by
  simp only [sort, found]
  rfl

end Topo

open Topo in
/-- Kahn's order is the least linearization: without a cycle the sort returns the lexicographically
least linearization (the arena order when that is one); with a cycle it fails listing, in arena
order, exactly the ops on a cycle or downstream of one. -/
theorem sort_is_least_linearization {ops : List Op} {producers : List (String × TensorRef)}
    (built : Index.producerMap ops = .ok producers) (resolve : InputsResolve ops) :
    (Acyclic ops → ∃ order, sort ops producers = .ok order ∧ IsLinearization ops order ∧
        ∀ other, IsLinearization ops other → ¬ List.Lex (· < ·) other order) ∧
      (IsLinearization ops (List.range ops.length) →
        sort ops producers = .ok (List.range ops.length)) ∧
      (¬ Acyclic ops → ∃ left : List Nat, sort ops producers =
        .error (.cycle (left.map fun i => (ops.getD i default).name)) ∧
        left.Pairwise (· < ·) ∧ ∀ i, i ∈ left ↔ BelowCycle ops i) := by
  have ⟨distinct, table⟩ : (tensorNames ops).Nodup ∧ producers = Index.outputSlots ops := by
    rcases Index.producerMap_cases ops with ⟨nodup, ok⟩ | ⟨a, failed, _⟩
    · rw [ok] at built
      exact ⟨nodup, (Except.ok.inj built).symm⟩
    · rw [failed] at built
      cases built
  subst table
  obtain ⟨deps, found, length, feeds⟩ := producerIds_spec resolve distinct
  have sorted := sort_eq_of_producerIds found
  have relation : (fun p c => p ∈ deps.toArray.getD c []) = Feeds ops := by
    funext p c
    exact propext (feeds c p)
  have closed : ∀ c p, p ∈ deps.toArray.getD c [] → p < deps.length :=
    fun c p producer => length ▸ ((feeds c p).mp producer).lt_length.1
  -- without a cycle the sort leaves nothing, and its order is least
  have least : Acyclic ops → sort ops (Index.outputSlots ops) = .ok (readyOrder deps).1 ∧
      IsLinearization ops (readyOrder deps).1 ∧
      ∀ other, IsLinearization ops other → ¬ List.Lex (· < ·) other (readyOrder deps).1 := by
    intro acyclic
    have none : (readyOrder deps).2 = [] := readyOrder_left_eq_nil (relation ▸ acyclic) closed
    have linear := readyOrder_linearization length feeds none
    refine ⟨by simp [sorted, none], linear, fun other otherLinear => ?_⟩
    obtain ⟨picks, order, leastFrom⟩ := takeReady_least deps.toArray deps.toArray.size _ []
      (Marks.initial deps.toArray)
    have taken : (readyOrder deps).1 = picks := by simpa [readyOrder_eq] using order
    rw [taken] at linear ⊢
    obtain ⟨otherLength, -, otherBound⟩ := perm_range_iff.mp otherLinear.1
    exact leastFrom.not_lex (readyFrom_of_linearization feeds otherLinear)
      (fun j member => by simpa [length] using otherBound j member)
      (by rw [otherLength, (perm_range_iff.mp linear.1).1])
  refine ⟨fun acyclic => ⟨_, least acyclic⟩, fun arena => ?_, fun cyclic => ?_⟩
  · -- the arena order is a linearization and the least rearrangement of itself
    obtain ⟨ok, linear, below⟩ := least arena.acyclic
    have same : (readyOrder deps).1 = List.range ops.length :=
      List.le_antisymm (below _ arena) (not_lex_of_perm_of_increasing List.pairwise_lt_range linear.1)
    rw [ok, same]
  · have some : (readyOrder deps).2 ≠ [] := fun none =>
      cyclic (readyOrder_linearization length feeds none).acyclic
    refine ⟨(readyOrder deps).2, by simp [sorted, List.isEmpty_iff, some], ?_, fun i => ?_⟩
    · rw [readyOrder_eq]
      exact List.pairwise_lt_range.filter _
    · rw [readyOrder_left_iff closed i, relation]
      rfl

/-- An arena listed consumers first: `relu` reads `add`, which reads `x` twice. -/
def consumersFirstArena : List Op :=
  [⟨"relu", "Relu", ["add:0"], [⟨"relu:0", .float, ⟨none⟩⟩], []⟩,
   ⟨"add", "Add", ["x:0", "x:0"], [⟨"add:0", .float, ⟨none⟩⟩], []⟩,
   ⟨"x", "Placeholder", [], [⟨"x:0", .float, ⟨none⟩⟩], []⟩]

/-- The sort reverses the consumers-first arena, and no linearization is lexicographically
smaller. -/
theorem consumersFirstArena_sorts_least :
    Index.producerMap consumersFirstArena = .ok (Index.outputSlots consumersFirstArena) ∧
      InputsResolve consumersFirstArena ∧
      Topo.sort consumersFirstArena (Index.outputSlots consumersFirstArena) = .ok [2, 1, 0] ∧
      ∀ other, IsLinearization consumersFirstArena other → ¬ List.Lex (· < ·) other [2, 1, 0] := by
  have built : Index.producerMap consumersFirstArena = .ok (Index.outputSlots consumersFirstArena) :=
    by decide
  have resolve : InputsResolve consumersFirstArena := by decide
  have linear : IsLinearization consumersFirstArena [2, 1, 0] := by decide
  have acyclic : Acyclic consumersFirstArena := linear.acyclic
  obtain ⟨order, sorted, -, least⟩ := (sort_is_least_linearization built resolve).1 acyclic
  have computed : Topo.sort consumersFirstArena (Index.outputSlots consumersFirstArena) =
      .ok [2, 1, 0] := by decide
  rw [computed, Except.ok.injEq] at sorted
  subst sorted
  exact ⟨built, resolve, computed, least⟩

/-- An arena where `a` and `b` read each other, after a placeholder `x` that `a` reads. -/
def crossedArena : List Op :=
  [⟨"x", "Placeholder", [], [⟨"x:0", .float, ⟨none⟩⟩], []⟩,
   ⟨"a", "Add", ["x:0", "b:0"], [⟨"a:0", .float, ⟨none⟩⟩], []⟩,
   ⟨"b", "Relu", ["a:0"], [⟨"b:0", .float, ⟨none⟩⟩], []⟩]

-- the ops on the cycle are listed, and `x` upstream of it is not
example : Topo.sort crossedArena (Index.outputSlots crossedArena) = .error (.cycle ["a", "b"]) := by
  decide

end OpGraph
