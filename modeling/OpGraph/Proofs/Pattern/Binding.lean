import OpGraph.Proofs.Graph.Build
import OpGraph.Pattern.Binding

namespace OpGraph

/-- Two pairs of the list share their first component exactly when they share their second. -/
def OneToOne {α β : Type} (pairs : List (α × β)) : Prop :=
  ∀ x ∈ pairs, ∀ y ∈ pairs, x.1 = y.1 ↔ x.2 = y.2

instance {α β : Type} [DecidableEq α] [DecidableEq β] (pairs : List (α × β)) :
    Decidable (OneToOne pairs) :=
  inferInstanceAs (Decidable (∀ x ∈ pairs, ∀ y ∈ pairs, x.1 = y.1 ↔ x.2 = y.2))

theorem OneToOne.mono {α β : Type} {small large : List (α × β)} (one : OneToOne large)
    (sub : ∀ x ∈ small, x ∈ large) : OneToOne small :=
  fun x xIn y yIn => one x (sub x xIn) y (sub y yIn)

/-- An owner table reads as a list of pairs swapped: `v` is owned by `k` exactly when `(k, v)` is
one of the pairs. -/
def OwnersOf {α β : Type} [BEq β] (owners : List (β × α)) (pairs : List (α × β)) : Prop :=
  ∀ v k, lookupPair owners v = some k ↔ (k, v) ∈ pairs

/-- Appending a pair under a fresh key keeps a list free of repeats. -/
theorem nodup_append_fresh {α β : Type} {pairs : List (α × β)} {k : α} (v : β)
    (nodup : pairs.Nodup) (fresh : ∀ y ∈ pairs, y.1 ≠ k) : (pairs ++ [(k, v)]).Nodup := by
  refine nodup.append (List.nodup_singleton _) ?_
  simp only [List.disjoint_singleton]
  exact fun member => fresh _ member rfl

section Pairs

variable {α β : Type} [BEq α] [LawfulBEq α]

theorem mem_of_lookupPair {pairs : List (α × β)} {k : α} {v : β}
    (found : lookupPair pairs k = some v) : (k, v) ∈ pairs := by
  obtain ⟨⟨k', v'⟩, hit, rfl⟩ := Option.map_eq_some_iff.mp found
  have same : k' = k := by simpa using List.find?_some hit
  exact same ▸ List.mem_of_find?_eq_some hit

theorem lookupPair_eq_none {pairs : List (α × β)} {k : α} (absent : lookupPair pairs k = none) :
    ∀ y ∈ pairs, y.1 ≠ k := by
  intro y member same
  rw [lookupPair, Option.map_eq_none_iff, List.find?_eq_none] at absent
  exact absent y member (by simp [same])

theorem lookupPair_eq_some_of_mem {pairs : List (α × β)} {k : α} {v : β}
    (unique : ∀ y ∈ pairs, y.1 = k → y.2 = v) (member : (k, v) ∈ pairs) :
    lookupPair pairs k = some v := by
  cases found : lookupPair pairs k with
  | none => exact absurd rfl (lookupPair_eq_none found (k, v) member)
  | some w => exact congrArg some (unique (k, w) (mem_of_lookupPair found) rfl)

theorem any_key_iff {pairs : List (α × β)} {k : α} :
    pairs.any (·.1 == k) = true ↔ ∃ v, lookupPair pairs k = some v := by
  constructor
  · intro present
    cases found : lookupPair pairs k with
    | none =>
      obtain ⟨y, member, key⟩ := List.any_eq_true.mp present
      exact absurd (by simpa using key) (lookupPair_eq_none found y member)
    | some v => exact ⟨v, rfl⟩
  · rintro ⟨v, found⟩
    exact List.any_eq_true.mpr ⟨(k, v), mem_of_lookupPair found, by simp⟩

/-- Updating values in place keeps every pair's key. -/
theorem key_comp_update (k k' : α) (v : β) :
    (fun x : α × β => x.1 == k') ∘
      (fun x : α × β => match x with | (a, b) => if (a == k) = true then (a, v) else (a, b)) =
      (·.1 == k') := by
  funext x
  obtain ⟨a, b⟩ := x
  by_cases same : a = k <;> simp [same]

@[simp] theorem lookupPair_setPair_self (pairs : List (α × β)) (k : α) (v : β) :
    lookupPair (setPair pairs k v) k = some v := by
  unfold setPair lookupPair
  split
  · next present =>
    rw [List.find?_map, key_comp_update]
    obtain ⟨⟨a, b⟩, member, key⟩ := List.any_eq_true.mp present
    cases found : pairs.find? (·.1 == k) with
    | none => exact absurd key (List.find?_eq_none.mp found _ member)
    | some y =>
      have key' := List.find?_some found
      obtain ⟨a', b'⟩ := y
      simp_all
  · next absent =>
    have missing : pairs.find? (·.1 == k) = none :=
      List.find?_eq_none.mpr fun y member same => absent (List.any_eq_true.mpr ⟨y, member, same⟩)
    simp [List.find?_append, missing]

theorem lookupPair_setPair_of_ne (pairs : List (α × β)) {k k' : α} (v : β) (other : k' ≠ k) :
    lookupPair (setPair pairs k v) k' = lookupPair pairs k' := by
  unfold setPair lookupPair
  split
  · rw [List.find?_map, key_comp_update]
    cases found : pairs.find? (·.1 == k') with
    | none => rfl
    | some y =>
      have key := List.find?_some found
      obtain ⟨a, b⟩ := y
      simp only [beq_iff_eq] at key
      simp [key, other]
  · simp [List.find?_append, Ne.symm other]

theorem setPair_of_fresh {pairs : List (α × β)} {k : α} (v : β)
    (fresh : ∀ y ∈ pairs, y.1 ≠ k) :
    setPair pairs k v = pairs ++ [(k, v)] := by
  have absent : pairs.any (·.1 == k) = false :=
    List.any_eq_false.mpr fun y member same => fresh y member (by simpa using same)
  simp [setPair, absent]

/-- Setting a key that is present to the value its pairs already have changes nothing. -/
theorem setPair_of_present {pairs : List (α × β)} {k : α} {v : β}
    (present : pairs.any (·.1 == k) = true) (agree : ∀ y ∈ pairs, y.1 = k → y.2 = v) :
    setPair pairs k v = pairs := by
  rw [setPair, if_pos present]
  refine (List.map_congr_left fun z zIn => ?_).trans (List.map_id _)
  obtain ⟨a, c⟩ := z
  by_cases same : a = k
  · subst same
    have bound : c = v := agree _ zIn rfl
    simp [bound]
  · simp [same]

/-- Setting a pair that agrees with every pair of the list adds it, unless it is there already. -/
theorem setPair_of_agree {pairs : List (α × β)} {k : α} {v : β}
    (agree : ∀ y ∈ pairs, y.1 = k → y.2 = v) :
    (∀ x, x ∈ setPair pairs k v ↔ x ∈ pairs ∨ x = (k, v)) ∧
      (pairs.Nodup → (setPair pairs k v).Nodup) := by
  by_cases present : ∃ y ∈ pairs, y.1 = k
  · -- the pair is there, so the update changes nothing
    obtain ⟨y, member, key⟩ := present
    have there : (k, v) ∈ pairs := by
      have := agree y member key
      rw [← key, ← this]
      exact member
    have any : pairs.any (·.1 == k) = true := List.any_eq_true.mpr ⟨y, member, by simp [key]⟩
    rw [setPair_of_present any agree]
    exact ⟨fun x => ⟨Or.inl, fun h => h.elim id (· ▸ there)⟩, id⟩
  · have fresh : ∀ y ∈ pairs, y.1 ≠ k := fun y member same => present ⟨y, member, same⟩
    rw [setPair_of_fresh v fresh]
    exact ⟨fun x => by simp, fun nodup => nodup_append_fresh v nodup fresh⟩

end Pairs

theorem ownersOf_nil {α β : Type} [BEq β] : OwnersOf ([] : List (β × α)) [] := by
  simp [OwnersOf, lookupPair]

section Owners

variable {α β : Type} [BEq β] [LawfulBEq β]

theorem OwnersOf.any_iff {owners : List (β × α)} {pairs : List (α × β)}
    (own : OwnersOf owners pairs) {v : β} :
    owners.any (·.1 == v) = true ↔ ∃ k, (k, v) ∈ pairs := by
  rw [any_key_iff]
  exact exists_congr fun k => own v k

/-- Entering `v` with owner `k` keeps an owner table the swap of the pairs, when `(k, v)` joins
the pairs and no other pair ends in `v`. -/
theorem OwnersOf.set {owners : List (β × α)} {pairs pairs' : List (α × β)} {k : α} {v : β}
    (own : OwnersOf owners pairs) (agree : ∀ y ∈ pairs, y.2 = v → y.1 = k)
    (members : ∀ x, x ∈ pairs' ↔ x ∈ pairs ∨ x = (k, v)) : OwnersOf (setPair owners v k) pairs' := by
  intro v' k'
  rw [members]
  by_cases same : v' = v
  · subst same
    rw [lookupPair_setPair_self, Option.some.injEq]
    constructor
    · rintro rfl
      exact Or.inr rfl
    · rintro (old | new)
      · exact (agree _ old rfl).symm
      · exact (Prod.mk.inj new).1.symm
  · rw [lookupPair_setPair_of_ne _ _ same, own]
    constructor
    · exact Or.inl
    · rintro (old | new)
      · exact old
      · exact absurd (Prod.mk.inj new).2 same

/-- A value no pair ends in has no entry in the owner table. -/
theorem OwnersOf.not_mem {owners : List (β × α)} {pairs : List (α × β)}
    (own : OwnersOf owners pairs) {v : β} (free : ∀ y ∈ pairs, y.2 ≠ v) : ∀ y ∈ owners, y.1 ≠ v := by
  rintro ⟨v', k⟩ member rfl
  have present : owners.any (·.1 == v') = true := List.any_eq_true.mpr ⟨(v', k), member, by simp⟩
  obtain ⟨k', found⟩ := any_key_iff.mp present
  exact free _ ((own v' k').mp found) rfl

end Owners

namespace Binding

/-- The owner tables of a binding read as its pairs swapped. -/
structure Owned (b : Binding) : Prop where
  ops : OwnersOf b.opOwners b.ops
  tensors : OwnersOf b.tensorOwners b.tensors

theorem owned_empty : Owned empty := ⟨ownersOf_nil, ownersOf_nil⟩

theorem Owned.isClaimed_iff {b : Binding} (owned : b.Owned) {s : Nat} :
    b.isClaimed s = true ↔ ∃ q, (q, s) ∈ b.ops :=
  owned.ops.any_iff

/-- A pair agrees with one-to-one tensor pairs exactly when it is one to one with each of them. -/
theorem tensorAgrees_iff {b : Binding} (one : OneToOne b.tensors)
    (owners : OwnersOf b.tensorOwners b.tensors) {pt st : String} :
    b.tensorAgrees pt st = true ↔ ∀ y ∈ b.tensors, y.1 = pt ↔ y.2 = st := by
  unfold tensorAgrees subjectTensor?
  cases found : lookupPair b.tensors pt with
  | some bound =>
    have member := mem_of_lookupPair found
    simp only [beq_iff_eq]
    constructor
    · rintro rfl y yIn
      exact one y yIn _ member
    · intro agree
      exact ((agree _ member).mp rfl)
  | none =>
    have absent := lookupPair_eq_none found
    -- `st` has no owner exactly when no pair ends in it
    rw [Bool.not_eq_true', Bool.eq_false_iff, Ne, owners.any_iff]
    constructor
    · intro unused y yIn
      exact ⟨fun same => absurd same (absent y yIn),
        fun same => absurd ⟨y.1, same ▸ yIn⟩ unused⟩
    · rintro agree ⟨k, member⟩
      exact absent _ member ((agree _ member).mpr rfl)

theorem setPair_of_tensorAgrees {b : Binding} {pt st : String} (one : OneToOne b.tensors)
    (owners : OwnersOf b.tensorOwners b.tensors) (agrees : b.tensorAgrees pt st = true) :
    (∀ x, x ∈ setPair b.tensors pt st ↔ x ∈ b.tensors ∨ x = (pt, st)) ∧
      OneToOne (setPair b.tensors pt st) ∧
        (b.tensors.Nodup → (setPair b.tensors pt st).Nodup) ∧
        OwnersOf (setPair b.tensorOwners st pt) (setPair b.tensors pt st) := by
  have agree := (tensorAgrees_iff one owners).mp agrees
  obtain ⟨set, setNodup⟩ := setPair_of_agree fun y yIn key => (agree y yIn).mp key
  refine ⟨set, fun x xIn y yIn => ?_, setNodup,
    owners.set (fun y yIn key => (agree y yIn).mpr key) set⟩
  rcases (set x).mp xIn with xOld | rfl <;> rcases (set y).mp yIn with yOld | rfl
  · exact one x xOld y yOld
  · exact agree x xOld
  · exact ⟨fun same => ((agree y yOld).mp same.symm).symm,
      fun same => ((agree y yOld).mpr same.symm).symm⟩
  · exact ⟨fun _ => rfl, fun _ => rfl⟩

/-- The step `bind` folds over tensor pairs: a pair that agrees enters both tensor tables. -/
def tensorStep (acc : Binding) (pair : String × String) : Option Binding :=
  if acc.tensorAgrees pair.1 pair.2 then
    some { acc with tensors := setPair acc.tensors pair.1 pair.2,
                    tensorOwners := setPair acc.tensorOwners pair.2 pair.1 }
  else none

theorem tensorStep_of_agrees {acc : Binding} {pt st : String} (agrees : acc.tensorAgrees pt st) :
    acc.tensorStep (pt, st) =
      some { acc with tensors := setPair acc.tensors pt st,
                      tensorOwners := setPair acc.tensorOwners st pt } := by
  simp [tensorStep, agrees]

theorem tensorStep_of_not_agrees {acc : Binding} {pt st : String}
    (disagrees : acc.tensorAgrees pt st = false) : acc.tensorStep (pt, st) = none := by
  simp [tensorStep, disagrees]

theorem bind_eq_foldlM (b : Binding) (p s : Nat) (pairs : List (String × String)) :
    b.bind p s pairs =
      if (lookupPair b.opOwners s).any (· != p) then none
      else pairs.foldlM tensorStep
        { b with ops := setPair b.ops p s, opOwners := setPair b.opOwners s p } := rfl

/-- The fold of `bind` over tensor pairs ends with the pairs given added, one to one. -/
theorem foldlM_setPairs_eq_some {pairs : List (String × String)} {acc c : Binding}
    (done : pairs.foldlM tensorStep acc = some c) (one : OneToOne acc.tensors) (nodup : acc.tensors.Nodup)
    (owners : OwnersOf acc.tensorOwners acc.tensors) :
    c.ops = acc.ops ∧ c.opOwners = acc.opOwners ∧
      (∀ x, x ∈ c.tensors ↔ x ∈ acc.tensors ∨ x ∈ pairs) ∧
      OneToOne c.tensors ∧ c.tensors.Nodup ∧ OwnersOf c.tensorOwners c.tensors := by
  induction pairs generalizing acc with
  | nil =>
    cases done
    exact ⟨rfl, rfl, by simp, one, nodup, owners⟩
  | cons pair rest ih =>
    obtain ⟨pt, st⟩ := pair
    rw [List.foldlM_cons] at done
    cases agrees : acc.tensorAgrees pt st with
    | false => simp [tensorStep_of_not_agrees agrees] at done
    | true =>
      rw [tensorStep_of_agrees agrees] at done
      obtain ⟨set, oneNext, setNodup, ownersNext⟩ := setPair_of_tensorAgrees one owners agrees
      obtain ⟨ops, opOwners, tensors, oneC, nodupC, ownersC⟩ :=
        ih done oneNext (setNodup nodup) ownersNext
      refine ⟨ops, opOwners, fun x => ?_, oneC, nodupC, ownersC⟩
      rw [tensors x, set x, List.mem_cons]
      tauto

/-- The fold of `bind` over tensor pairs ends whenever the pairs bound so far and those given all
fit one one-to-one pairing. -/
theorem foldlM_setPairs_isSome {whole : List (String × String)} (oneWhole : OneToOne whole) :
    ∀ (pairs : List (String × String)) (acc : Binding), OwnersOf acc.tensorOwners acc.tensors →
      (∀ x ∈ acc.tensors, x ∈ whole) → (∀ x ∈ pairs, x ∈ whole) →
      ∃ c, pairs.foldlM tensorStep acc = some c
  | [], acc, _, _, _ => ⟨acc, rfl⟩
  | (pt, st) :: rest, acc, owners, sub, pairsIn => by
    have one := oneWhole.mono sub
    have added : (pt, st) ∈ whole := pairsIn _ List.mem_cons_self
    -- a pair of one pairing agrees with the part of that pairing bound so far
    have agrees : acc.tensorAgrees pt st = true :=
      (tensorAgrees_iff one owners).mpr fun y yIn => oneWhole y (sub y yIn) (pt, st) added
    obtain ⟨set, -, -, ownersNext⟩ := setPair_of_tensorAgrees one owners agrees
    rw [List.foldlM_cons, tensorStep_of_agrees agrees]
    exact foldlM_setPairs_isSome oneWhole rest _ ownersNext
      (fun x xIn => ((set x).mp xIn).elim (sub x) fun same => same ▸ added)
      fun x xIn => pairsIn x (List.mem_cons_of_mem _ xIn)

/-- The owner check of `bind` passes exactly when every pattern op paired with the subject op is
the one being bound. -/
theorem bind_free_iff {b : Binding} (owners : OwnersOf b.opOwners b.ops) {p s : Nat} :
    (lookupPair b.opOwners s).any (· != p) = false ↔ ∀ q, (q, s) ∈ b.ops → q = p := by
  cases found : lookupPair b.opOwners s with
  | none =>
    simp only [Option.any_none, true_iff]
    intro q member
    rw [(owners s q).mpr member] at found
    cases found
  | some q =>
    have member := (owners s q).mp found
    simp only [Option.any_some, bne_eq_false_iff_eq]
    constructor
    · rintro rfl q' member'
      exact Option.some.inj (((owners s q').mpr member').symm.trans found)
    · intro unclaimed
      exact unclaimed q member

/-- What a successful `bind` gives: the subject op was free or bound to the same pattern op, the
op pair is set in both tables, and the tensor pairs given are added, one to one. -/
theorem bind_eq_some {b c : Binding} {p s : Nat} {pairs : List (String × String)}
    (owned : b.Owned) (one : OneToOne b.tensors) (nodup : b.tensors.Nodup)
    (bound : b.bind p s pairs = some c) :
    (∀ q, (q, s) ∈ b.ops → q = p) ∧ c.ops = setPair b.ops p s ∧
      c.opOwners = setPair b.opOwners s p ∧
      (∀ x, x ∈ c.tensors ↔ x ∈ b.tensors ∨ x ∈ pairs) ∧ OneToOne c.tensors ∧
        c.tensors.Nodup ∧ OwnersOf c.tensorOwners c.tensors := by
  rw [bind_eq_foldlM] at bound
  split at bound
  · cases bound
  · next claimed =>
    obtain ⟨ops, opOwners, tensors, oneC, nodupC, ownersC⟩ :=
      foldlM_setPairs_eq_some bound one nodup owned.tensors
    exact ⟨(bind_free_iff owned.ops).mp (Bool.eq_false_iff.mpr claimed), ops, opOwners, tensors,
      oneC, nodupC, ownersC⟩

/-- Binding a pattern op that is free or already bound to the subject op keeps the owner tables
the swap of the pairs. -/
theorem Owned.bind {b c : Binding} {p s : Nat} {pairs : List (String × String)}
    (owned : b.Owned) (keeps : ∀ y ∈ b.ops, y.1 = p → y.2 = s) (one : OneToOne b.tensors)
    (nodup : b.tensors.Nodup) (bound : b.bind p s pairs = some c) : c.Owned := by
  obtain ⟨unclaimed, ops, opOwners, -, -, -, ownersC⟩ := bind_eq_some owned one nodup bound
  refine ⟨?_, ownersC⟩
  rw [ops, opOwners]
  refine owned.ops.set ?_ (setPair_of_agree keeps).1
  rintro ⟨q, t⟩ member rfl
  exact unclaimed q member

/-- Binding a free subject op succeeds when the tensor pairs bound so far and those given all fit
one one-to-one pairing. -/
theorem bind_isSome {b : Binding} {p s : Nat} {pairs : List (String × String)} (owned : b.Owned)
    (unclaimed : ∀ q, (q, s) ∈ b.ops → q = p) {whole : List (String × String)}
    (oneWhole : OneToOne whole) (sub : ∀ x ∈ b.tensors, x ∈ whole)
    (pairsIn : ∀ x ∈ pairs, x ∈ whole) : ∃ c, b.bind p s pairs = some c := by
  rw [bind_eq_foldlM, (bind_free_iff owned.ops).mpr unclaimed, if_neg Bool.false_ne_true]
  exact foldlM_setPairs_isSome oneWhole pairs _ owned.tensors sub pairsIn

theorem aligns_iff {b : Binding} {patternInputs subjectInputs : List String} {perm : Permutation} :
    b.aligns patternInputs subjectInputs perm = true ↔
      ∀ x ∈ perm.zipIdx, ∃ pt st, patternInputs[x.1]? = some pt ∧
        subjectInputs[x.2]? = some st ∧
        b.tensorAgrees pt st = true := by
  unfold aligns
  rw [List.all_eq_true]
  refine forall₂_congr fun x _ => ?_
  obtain ⟨j, k⟩ := x
  dsimp only
  cases patternInputs[j]? <;> cases subjectInputs[k]? <;> simp

theorem sameMembers_iff {α : Type} [BEq α] [LawfulBEq α] {l l' : List α} (nodup : l.Nodup)
    (nodup' : l'.Nodup) :
    (l.length == l'.length && l.all l'.contains) = true ↔ ∀ x, x ∈ l ↔ x ∈ l' := by
  simp only [Bool.and_eq_true, beq_iff_eq, List.all_eq_true, List.contains_iff_mem]
  constructor
  · rintro ⟨length, within⟩
    exact fun x => ((nodup.subperm within).perm_of_length_le length.ge).mem_iff
  · intro same
    have perm := (List.perm_ext_iff_of_nodup nodup nodup').mpr same
    exact ⟨perm.length_eq, fun x member => (same x).mp member⟩

/-- Bindings without repeated pairs are the same occurrence exactly when they hold the same op
pairs and the same tensor pairs. -/
theorem samePairs_iff {a b : Binding} (ao : a.ops.Nodup) (bo : b.ops.Nodup)
    (at' : a.tensors.Nodup) (bt : b.tensors.Nodup) :
    a.samePairs b = true ↔
      (∀ x, x ∈ a.ops ↔ x ∈ b.ops) ∧ ∀ x, x ∈ a.tensors ↔ x ∈ b.tensors := by
  rw [← sameMembers_iff ao bo, ← sameMembers_iff at' bt, samePairs]
  simp only [Bool.and_eq_true, and_assoc]

end Binding

end OpGraph
