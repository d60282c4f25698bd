import OpGraph.Proofs.Graph.Tables
import OpGraph.Graph.Topo
import Mathlib.Data.List.Perm.Subperm

namespace OpGraph

/-- Op `p` produces a tensor that op `c` reads. Ids outside the arena take part in no edge. -/
def Feeds (ops : List Op) (p c : Nat) : Prop :=
  ∃ t ∈ (ops.getD c default).inputs, t ∈ (ops.getD p default).outputs.map (·.name)

instance (ops : List Op) (p c : Nat) : Decidable (Feeds ops p c) :=
  inferInstanceAs (Decidable (∃ t ∈ (ops.getD c default).inputs, _))

/-- No op reaches itself along producer-to-consumer edges. -/
def Acyclic (ops : List Op) : Prop := ∀ i, ¬ Relation.TransGen (Feeds ops) i i

/-- An order of the arena: every arena index exactly once, each producer strictly before each of
its consumers. -/
def IsLinearization (ops : List Op) (order : List Nat) : Prop :=
  order.Perm (List.range ops.length) ∧
    ∀ c < ops.length, ∀ p < ops.length, Feeds ops p c → order.idxOf p < order.idxOf c

instance (ops : List Op) (order : List Nat) : Decidable (IsLinearization ops order) :=
  inferInstanceAs (Decidable (_ ∧ _))

@[simp] theorem except_ok_bind {ε α β : Type} (a : α) (f : α → Except ε β) :
    (Except.ok a >>= f) = f a := rfl

@[simp] theorem except_error_bind {ε α β : Type} (e : ε) (f : α → Except ε β) :
    (Except.error e >>= f) = .error e := rfl

theorem except_bind_eq_ok {ε α β : Type} {x : Except ε α} {f : α → Except ε β} {b : β} :
    (x >>= f) = .ok b ↔ ∃ a, x = .ok a ∧ f a = .ok b := by
  cases x <;> simp [bind, Except.bind]

theorem except_bind_eq_error {ε α β : Type} {x : Except ε α} {f : α → Except ε β} {e : ε} :
    (x >>= f) = .error e ↔ x = .error e ∨ ∃ a, x = .ok a ∧ f a = .error e := by
  cases x <;> simp [bind, Except.bind]

theorem mapM_eq_ok_map {α β ε : Type} {f : α → Except ε β} (g : α → β) :
    ∀ {l : List α}, (∀ x ∈ l, f x = .ok (g x)) → l.mapM f = .ok (l.map g)
  | [], _ => rfl
  | x :: rest, ok => by
    have tail := mapM_eq_ok_map g fun y member => ok y (List.mem_cons_of_mem x member)
    simp [List.mapM_cons, ok x List.mem_cons_self, tail]

/-- A loop whose body never stops early runs to the end exactly when every step succeeds. -/
theorem forIn_unit_eq_ok_iff {α ε : Type} {xs : List α}
    {f : α → PUnit → Except ε (ForInStep PUnit)} (noDone : ∀ x ∈ xs, f x ⟨⟩ ≠ .ok (.done ⟨⟩)) :
    forIn xs PUnit.unit f = .ok PUnit.unit ↔ ∀ x ∈ xs, f x ⟨⟩ = .ok (.yield ⟨⟩) := by
  induction xs with
  | nil => simp [pure, Except.pure]
  | cons x rest ih =>
    rw [List.forIn_cons]
    rcases h : f x ⟨⟩ with e | step
    · simp [bind, Except.bind, h]
    · cases step with
      | done u => exact absurd h (noDone x List.mem_cons_self)
      | yield u =>
        simp only [bind, Except.bind, List.mem_cons, forall_eq_or_imp, h, true_and]
        exact ih fun y member => noDone y (List.mem_cons_of_mem x member)

/-- A loop fails only with the error of one of its steps. -/
theorem forIn_unit_eq_error {α ε : Type} {xs : List α}
    {f : α → PUnit → Except ε (ForInStep PUnit)} {e : ε}
    (failed : forIn xs PUnit.unit f = .error e) : ∃ x ∈ xs, f x ⟨⟩ = .error e := by
  induction xs with
  | nil => simp [pure, Except.pure] at failed
  | cons x rest ih =>
    rw [List.forIn_cons] at failed
    rcases h : f x ⟨⟩ with e' | step
    · simp only [h, bind, Except.bind, Except.error.injEq] at failed
      exact ⟨x, List.mem_cons_self, failed ▸ h⟩
    · cases step with
      | done u => simp [h, bind, Except.bind, pure, Except.pure] at failed
      | yield u =>
        simp only [h, bind, Except.bind] at failed
        obtain ⟨y, member, hy⟩ := ih failed
        exact ⟨y, List.mem_cons_of_mem x member, hy⟩

/-- A loop whose every step either checks a property and moves on, or fails, runs to the end exactly
when the property holds at every step. -/
theorem forIn_eq_ok_iff_of_steps {α ε : Type} {xs : List α}
    {f : α → PUnit → Except ε (ForInStep PUnit)} (P : α → Prop)
    (steps : ∀ x ∈ xs, (P x → f x ⟨⟩ = .ok (.yield ⟨⟩)) ∧ (¬ P x → ∃ e, f x ⟨⟩ = .error e)) :
    forIn xs PUnit.unit f = .ok PUnit.unit ↔ ∀ x ∈ xs, P x := by
  have noDone : ∀ x ∈ xs, f x ⟨⟩ ≠ .ok (.done ⟨⟩) := by
    intro x member stopped
    by_cases holds : P x
    · rw [(steps x member).1 holds] at stopped
      cases stopped
    · obtain ⟨e, failed⟩ := (steps x member).2 holds
      rw [failed] at stopped
      cases stopped
  rw [forIn_unit_eq_ok_iff noDone]
  apply forall₂_congr
  intro x member
  constructor
  · intro ok
    by_contra fails
    obtain ⟨e, failed⟩ := (steps x member).2 fails
    rw [failed] at ok
    cases ok
  · exact (steps x member).1

/-- A loop step that runs a loop and then moves on succeeds exactly when the inner loop does. -/
theorem yield_after_steps {ε : Type} {x : Except ε PUnit} {P : Prop} (iff : x = .ok PUnit.unit ↔ P) :
    (P → (x >>= fun _ => pure (ForInStep.yield PUnit.unit)) = .ok (.yield PUnit.unit)) ∧
      (¬ P → ∃ e, (x >>= fun _ => pure (ForInStep.yield PUnit.unit)) = .error e) := by
  rcases x with e | ⟨⟩
  · exact ⟨fun holds => absurd (iff.mpr holds) (by simp), fun _ => ⟨e, rfl⟩⟩
  · exact ⟨fun _ => rfl, fun fails => absurd (iff.mp rfl) fails⟩

theorem Feeds.lt_length {ops : List Op} {p c : Nat} (feeds : Feeds ops p c) :
    p < ops.length ∧ c < ops.length := by
  obtain ⟨t, input, output⟩ := feeds
  constructor
  · by_contra outside
    rw [List.getD_eq_getElem?_getD, List.getElem?_eq_none (by omega)] at output
    simp at output
  · by_contra outside
    rw [List.getD_eq_getElem?_getD, List.getElem?_eq_none (by omega)] at input
    simp at input

theorem feeds_of_lookup {ops : List Op} {c : Nat} {t : String} {r : TensorRef}
    (input : t ∈ (ops.getD c default).inputs) (found : Index.lookup (Index.outputSlots ops) t = some r) :
    Feeds ops r.op c := by
  obtain ⟨op, tensor, atOp, atTensor, named⟩ :=
    Index.mem_outputSlots.mp (Index.mem_of_lookup_eq_some found)
  refine ⟨t, input, ?_⟩
  rw [List.getD_eq_getElem?_getD, atOp, Option.getD_some]
  exact List.mem_map.mpr ⟨tensor, List.mem_of_getElem? atTensor, named⟩

/-- With no repeated tensor name, every edge is witnessed by an input that the producer table
resolves to the producing op. -/
theorem lookup_of_feeds {ops : List Op} (distinct : (tensorNames ops).Nodup) {p c : Nat}
    (feeds : Feeds ops p c) :
    ∃ t ∈ (ops.getD c default).inputs, ∃ slot,
      Index.lookup (Index.outputSlots ops) t = some ⟨p, slot⟩ := by
  have inRange := feeds.lt_length.1
  obtain ⟨t, input, output⟩ := feeds
  obtain ⟨tensor, produced, named⟩ := List.mem_map.mp output
  obtain ⟨slot, atSlot⟩ := List.mem_iff_getElem?.mp produced
  have atOp : ops[p]? = some (ops.getD p default) := by
    rw [List.getD_eq_getElem?_getD, List.getElem?_eq_getElem inRange, Option.getD_some]
  refine ⟨t, input, slot, Index.lookup_eq_some_of_mem distinct ?_⟩
  exact Index.mem_outputSlots.mpr ⟨_, tensor, atOp, atSlot, named⟩

theorem perm_range_iff {order : List Nat} {n : Nat} :
    order.Perm (List.range n) ↔ order.length = n ∧ order.Nodup ∧ ∀ i ∈ order, i < n := by
  constructor
  · intro perm
    refine ⟨by simpa using perm.length_eq, perm.nodup_iff.mpr List.nodup_range, ?_⟩
    intro i member
    exact List.mem_range.mp (perm.mem_iff.mp member)
  · rintro ⟨length, nodup, bound⟩
    have sub := nodup.subperm fun i member => List.mem_range.mpr (bound i member)
    exact sub.perm_of_length_le (by simp [length])

/-- Along a linearization every path of edges goes forward. -/
theorem IsLinearization.idxOf_lt {ops : List Op} {order : List Nat}
    (linear : IsLinearization ops order) {p c : Nat} (path : Relation.TransGen (Feeds ops) p c) :
    order.idxOf p < order.idxOf c := by
  induction path with
  | single feeds =>
    have bounds := feeds.lt_length
    exact linear.2 _ bounds.2 _ bounds.1 feeds
  | tail _ feeds ih =>
    have bounds := feeds.lt_length
    exact Nat.lt_trans ih (linear.2 _ bounds.2 _ bounds.1 feeds)

theorem IsLinearization.acyclic {ops : List Op} {order : List Nat}
    (linear : IsLinearization ops order) : Acyclic ops := fun _ cycle =>
  Nat.lt_irrefl _ (linear.idxOf_lt cycle)

theorem getElem?_set!_of_getElem? {α : Type} {pos : Array α} {id j : Nat} {old v : α}
    (present : pos[id]? = some old) : (pos.set! id v)[j]? = if id = j then some v else pos[j]? := by
  have inRange : id < pos.size := by
    by_contra outside
    rw [Array.getElem?_eq_none (by omega)] at present
    cases present
  simp only [Array.set!_eq_setIfInBounds, Array.getElem?_setIfInBounds]
  split <;> simp_all

namespace Topo

/-- Every id of an order has an unmarked entry in the position table, and none is listed twice. -/
def FitsPositions (pos : Array (Option Nat)) (order : List Nat) : Prop :=
  order.Nodup ∧ ∀ id ∈ order, pos[id]? = some none

/-- Reading a stored order into the position table: either every id fits and gets its position,
or the order is rejected as an invalid order. -/
theorem positions_cases (ops : List Op) (order : List Nat) (start : Nat)
    (pos : Array (Option Nat)) :
    (FitsPositions pos order ∧ ∃ pos', positions ops order start pos = .ok pos' ∧
        ∀ i, pos'[i]? = if i ∈ order then some (some (start + order.idxOf i)) else pos[i]?) ∨
      (¬ FitsPositions pos order ∧
        ∃ fault, positions ops order start pos = .error (.invalidTopoOrder fault)) := by
  induction order generalizing start pos with
  | nil => left; exact ⟨⟨List.nodup_nil, by simp⟩, pos, rfl, by simp⟩
  | cons id rest ih =>
    rcases entry : pos[id]? with _ | _ | k
    · right
      refine ⟨fun fits => ?_, .outOfRange id, by simp [positions, entry]⟩
      simpa [entry] using fits.2 id List.mem_cons_self
    · -- the id is free: record its position and read the rest
      have setAt := fun j => getElem?_set!_of_getElem? (v := some start) (j := j) entry
      have step : positions ops (id :: rest) start pos =
          positions ops rest (start + 1) (pos.set! id (some start)) := by
        simp [positions, entry]
      rw [step]
      rcases ih (start + 1) (pos.set! id (some start)) with ⟨fits, pos', read, atPos⟩ | ⟨unfit, failed⟩
      · have fresh : id ∉ rest := fun member => by
          have marked := fits.2 id member
          rw [setAt, if_pos rfl] at marked
          cases marked
        left
        refine ⟨⟨List.nodup_cons.mpr ⟨fresh, fits.1⟩, ?_⟩, pos', read, ?_⟩
        · intro j member
          rcases List.mem_cons.mp member with rfl | later
          · exact entry
          · have other : id ≠ j := fun same => fresh (same ▸ later)
            have marked := fits.2 j later
            rwa [setAt, if_neg other] at marked
        · intro i
          rw [atPos i, setAt i]
          by_cases same : id = i
          · subst same
            simp [fresh]
          · have other : i ≠ id := Ne.symm same
            by_cases later : i ∈ rest
            · simp [later, List.idxOf_cons_ne _ same]
              omega
            · simp [later, same, other]
      · right
        refine ⟨fun fits => unfit ⟨(List.nodup_cons.mp fits.1).2, fun j member => ?_⟩, failed⟩
        have other : id ≠ j := fun same => (List.nodup_cons.mp fits.1).1 (same ▸ member)
        rw [setAt, if_neg other]
        exact fits.2 j (List.mem_cons_of_mem id member)
    · right
      refine ⟨fun fits => ?_, .listedTwice (ops.getD id default).name, by simp [positions, entry]⟩
      simpa [entry] using fits.2 id List.mem_cons_self

theorem fitsPositions_replicate {n : Nat} {order : List Nat} :
    FitsPositions (Array.replicate n none) order ↔ order.Nodup ∧ ∀ id ∈ order, id < n := by
  unfold FitsPositions
  constructor
  · rintro ⟨nodup, marked⟩
    refine ⟨nodup, fun id member => ?_⟩
    have entry := marked id member
    rw [Array.getElem?_replicate] at entry
    by_contra outside
    simp [outside] at entry
  · rintro ⟨nodup, bound⟩
    exact ⟨nodup, fun id member => by simp [bound id member]⟩

theorem lookup_of_resolve {ops : List Op} (resolve : InputsResolve ops) {op : Op} {t : String}
    (member : op ∈ ops) (input : t ∈ op.inputs) :
    ∃ r, Index.lookup (Index.outputSlots ops) t = some r := by
  cases found : Index.lookup (Index.outputSlots ops) t with
  | some r => exact ⟨r, rfl⟩
  | none =>
    have absent := Index.lookup_eq_none_iff.mp found
    rw [Index.map_fst_outputSlots] at absent
    exact absurd (resolve op member t input) absent

theorem getD_of_mem_zipIdx {ops : List Op} {op : Op} {c : Nat} (member : (op, c) ∈ ops.zipIdx) :
    c < ops.length ∧ ops.getD c default = op := by
  have atOp := List.mk_mem_zipIdx_iff_getElem?.mp member
  have bound : c < ops.length := by
    by_contra outside
    rw [List.getElem?_eq_none (by omega)] at atOp
    cases atOp
  exact ⟨bound, by rw [List.getD_eq_getElem?_getD, atOp, Option.getD_some]⟩

theorem mem_zipIdx_getD {ops : List Op} {c : Nat} (bound : c < ops.length) :
    (ops.getD c default, c) ∈ ops.zipIdx := by
  apply List.mk_mem_zipIdx_iff_getElem?.mpr
  rw [List.getD_eq_getElem?_getD, List.getElem?_eq_getElem bound, Option.getD_some]

/-- Checking a stored order accepts it exactly when it is a linearization of the arena. -/
theorem check_eq_ok_iff {ops : List Op} (resolve : InputsResolve ops)
    (distinct : (tensorNames ops).Nodup) {order : List Nat} :
    check ops (Index.outputSlots ops) order = .ok () ↔ IsLinearization ops order := by
  unfold check
  by_cases length : order.length = ops.length
  swap
  · rw [if_pos length]
    simp only [except_bind_eq_ok]
    constructor
    · rintro ⟨_, failed, _⟩
      cases failed
    · intro linear
      exact absurd (perm_range_iff.mp linear.1).1 length
  rw [if_neg (by simpa using length)]
  simp only [except_bind_eq_ok]
  rcases positions_cases ops order 0 (Array.replicate ops.length none) with
    ⟨fits, pos, read, atPos⟩ | ⟨unfit, fault, failed⟩
  swap
  · constructor
    · rintro ⟨_, read, _⟩
      rw [failed] at read
      cases read
    · intro linear
      obtain ⟨-, nodup, bound⟩ := perm_range_iff.mp linear.1
      exact absurd (fitsPositions_replicate.mpr ⟨nodup, bound⟩) unfit
  obtain ⟨nodup, bound⟩ := fitsPositions_replicate.mp fits
  have perm : order.Perm (List.range ops.length) := perm_range_iff.mpr ⟨length, nodup, bound⟩
  -- once read, the table holds each op's index in the order
  have posOf : ∀ i < ops.length, (pos.getD i none).getD 0 = order.idxOf i := by
    intro i inRange
    have member : i ∈ order := perm.mem_iff.mpr (List.mem_range.mpr inRange)
    simp [atPos i, member]
  simp only [read, Except.ok.injEq, exists_eq_left']
  -- the loop over the arena checks each input against the position of its producer
  have unitResult : ∀ x : Except ValidationError PUnit,
      (∃ u, x = .ok u ∧ (pure () : Except ValidationError Unit) = .ok ()) ↔ x = .ok ⟨⟩ := by
    intro x
    exact ⟨fun ⟨⟨⟩, ran, _⟩ => ran, fun ran => ⟨⟨⟩, ran, rfl⟩⟩
  rw [unitResult, forIn_eq_ok_iff_of_steps (fun x => ∀ t ∈ x.1.inputs, ∀ r,
    Index.lookup (Index.outputSlots ops) t = some r → (pos.getD r.op none).getD 0 < (pos.getD x.2 none).getD 0)]
  · constructor
    · intro edges
      refine ⟨perm, fun c inC p inP feeds => ?_⟩
      obtain ⟨t, input, slot, found⟩ := lookup_of_feeds distinct feeds
      have forward := edges _ (mem_zipIdx_getD inC) t input _ found
      rwa [posOf p inP, posOf c inC] at forward
    · rintro linear ⟨op, c⟩ member t input r found
      obtain ⟨inC, atC⟩ := getD_of_mem_zipIdx member
      have feeds : Feeds ops r.op c := feeds_of_lookup (atC ▸ input) found
      rw [posOf _ feeds.lt_length.1, posOf c inC]
      exact linear.2 c inC r.op feeds.lt_length.1 feeds
  · rintro ⟨op, c⟩ member
    apply yield_after_steps
    rw [forIn_eq_ok_iff_of_steps]
    intro t input
    obtain ⟨r, found⟩ := lookup_of_resolve resolve (List.fst_mem_of_mem_zipIdx member) input
    simp only [found, Option.some.injEq, forall_eq']
    constructor
    · intro forward
      rw [if_neg (Nat.not_le.mpr forward)]
      rfl
    · intro late
      rw [if_pos (Nat.not_lt.mp late)]
      exact ⟨_, rfl⟩

/-- Checking a stored order fails only as an invalid order: an unresolved input cannot be met once
every input resolves. -/
theorem check_eq_error {ops : List Op} (resolve : InputsResolve ops) {order : List Nat}
    {e : ValidationError} (failed : check ops (Index.outputSlots ops) order = .error e) :
    ∃ fault, e = .invalidTopoOrder fault := by
  unfold check at failed
  split at failed
  · exact ⟨_, (Except.error.inj failed).symm⟩
  rw [except_bind_eq_error] at failed
  rcases failed with unread | ⟨pos, _, rest⟩
  · rcases positions_cases ops order 0 (Array.replicate ops.length none) with
      ⟨_, pos', read, _⟩ | ⟨_, fault, rejected⟩
    · rw [read] at unread
      cases unread
    · rw [rejected] at unread
      exact ⟨fault, (Except.error.inj unread).symm⟩
  rw [except_bind_eq_error] at rest
  rcases rest with loopFailed | ⟨_, _, finished⟩
  swap
  · cases finished
  obtain ⟨⟨op, c⟩, member, stepFailed⟩ := forIn_unit_eq_error loopFailed
  rw [except_bind_eq_error] at stepFailed
  rcases stepFailed with innerFailed | ⟨_, _, moved⟩
  swap
  · cases moved
  obtain ⟨t, input, edgeFailed⟩ := forIn_unit_eq_error innerFailed
  obtain ⟨r, found⟩ := lookup_of_resolve resolve (List.fst_mem_of_mem_zipIdx member) input
  simp only [found] at edgeFailed
  split at edgeFailed
  · exact ⟨_, (Except.error.inj edgeFailed).symm⟩
  · cases edgeFailed

end Topo

end OpGraph
