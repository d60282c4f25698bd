import OpGraph.Proofs.Pattern.Embedding

namespace OpGraph

/-- Permutations without repeats that all reorder the operands of the first one's arity. -/
def Permutation.OfOneArity (perms : List Permutation) : Prop :=
  perms.Nodup ∧ ∀ first ∈ perms.head?, ∀ perm ∈ perms, perm.Perm (List.range first.length)

instance (perms : List Permutation) : Decidable (Permutation.OfOneArity perms) :=
  inferInstanceAs (Decidable (_ ∧ _))

/-- A non-empty family of one arity reorders the operands of a single arity. -/
theorem Permutation.OfOneArity.arity {perms : List Permutation} (family : OfOneArity perms)
    (nonempty : perms ≠ []) : ∃ n, ∀ perm ∈ perms, perm.Perm (List.range n) := by
  obtain ⟨first, rest, split⟩ := List.exists_cons_of_ne_nil nonempty
  exact ⟨first.length, family.2 first (by simp [split])⟩

namespace Equivalences

/-- A registration call of the building phase. -/
inductive Registration where
  | association (opType : String) (perms : List Permutation)
  | compatibility (a b : String)

def register (t : Equivalences) : Registration → Except TransformError Equivalences
  | .association opType perms => t.registerAssociation opType perms
  | .compatibility a b => t.registerCompatibility a b

/-- A registration made on the tables; one that fails leaves them as they were. -/
def perform (t : Equivalences) (c : Registration) : Equivalences :=
  match t.register c with
  | .ok t' => t'
  | .error _ => t

def registerAll (t : Equivalences) (calls : List Registration) : Equivalences :=
  calls.foldl perform t

/-- What every run of registrations keeps. -/
structure Coherent (t : Equivalences) : Prop where
  -- each pair is stored in both directions and pairs two different types
  symmetric : ∀ p ∈ t.compatible, p.swap ∈ t.compatible
  irreflexive : ∀ p ∈ t.compatible, p.1 ≠ p.2
  typesOnce : (t.associations.map Prod.fst).Nodup
  entries : ∀ entry ∈ t.associations, entry.2 ≠ [] ∧ Permutation.OfOneArity entry.2

/-- Adding a pair that is already there changes nothing. -/
theorem mem_addPair {pairs : List (String × String)} {p q : String × String} :
    q ∈ (if pairs.contains p then pairs else pairs ++ [p]) ↔ q ∈ pairs ∨ q = p := by
  split
  · next present =>
    refine ⟨Or.inl, ?_⟩
    rintro (old | rfl)
    · exact old
    · simpa using present
  · simp

theorem mem_link {t : Equivalences} {a b : String} {p : String × String} :
    p ∈ (t.link a b).compatible ↔ p ∈ t.compatible ∨ p = (a, b) ∨ p = (b, a) := by
  simp only [link, mem_addPair, or_assoc]

/-- Collecting keeps a family of one arity without repeats. -/
theorem collectPermutations_ofOneArity {ty : String} :
    ∀ {perms acc out : List Permutation}, Permutation.OfOneArity acc →
      collectPermutations ty perms acc = .ok out → Permutation.OfOneArity out
  | [], acc, out, family, done => by
    cases done
    exact family
  | perm :: rest, acc, out, family, done => by
    simp only [collectPermutations] at done
    split at done
    · next fits =>
      refine collectPermutations_ofOneArity ?_ done
      have valid := Permutation.isValid_iff.mp fits
      split
      · exact family
      · next absent =>
        obtain ⟨nodup, arity⟩ := family
        refine ⟨nodup.append (List.nodup_singleton perm) (by simpa using absent), ?_⟩
        -- the first permutation fixes the arity; with none yet, the new one does
        cases acc with
        | nil =>
          intro first atFirst q member
          simp only [List.nil_append, List.head?_cons, Option.mem_def, Option.some.injEq] at atFirst
          subst atFirst
          rw [List.mem_singleton.mp member]
          simpa using valid
        | cons f r =>
          intro first atFirst q member
          simp only [List.cons_append, List.head?_cons, Option.mem_def, Option.some.injEq] at atFirst
          subst atFirst
          rcases List.mem_append.mp member with old | new
          · exact arity f rfl q old
          · rw [List.mem_singleton.mp new]
            simpa using valid
    · cases done

theorem empty_coherent : empty.Coherent := ⟨by simp [empty], by simp [empty], by simp [empty], by simp [empty]⟩

theorem defaults_coherent : defaults.Coherent := by
  refine ⟨by decide, by decide, by decide, by decide⟩

section Steps

variable {t t' : Equivalences}

theorem Coherent.link (coherent : t.Coherent) {a b : String} (distinct : a ≠ b) :
    (t.link a b).Coherent where
  symmetric p member := by
    rcases mem_link.mp member with old | rfl | rfl
    · exact mem_link.mpr (Or.inl (coherent.symmetric p old))
    · exact mem_link.mpr (Or.inr (Or.inr rfl))
    · exact mem_link.mpr (Or.inr (Or.inl rfl))
  irreflexive p member := by
    rcases mem_link.mp member with old | rfl | rfl
    · exact coherent.irreflexive p old
    · exact distinct
    · exact distinct.symm
  typesOnce := coherent.typesOnce
  entries := coherent.entries

theorem Coherent.registerCompatibility (coherent : t.Coherent) {a b : String}
    (registered : t.registerCompatibility a b = .ok t') : t'.Coherent := by
  unfold Equivalences.registerCompatibility at registered
  split at registered
  · cases registered
  · next fresh =>
    cases registered
    have distinct : a ≠ b := fun same => fresh (by simp [same])
    exact coherent.link distinct

theorem Coherent.registerAssociation (coherent : t.Coherent) {ty : String} {perms : List Permutation}
    (registered : t.registerAssociation ty perms = .ok t') : t'.Coherent := by
  unfold Equivalences.registerAssociation at registered
  cases collected : collectPermutations ty perms [] with
  | error e =>
    simp only [collected] at registered
    split at registered <;> cases registered
  | ok out =>
    have family := collectPermutations_ofOneArity (by decide) collected
    simp only [collected] at registered
    split at registered
    · cases registered
    · next absent =>
      simp only [bind, Except.bind, pure, Except.pure] at registered
      split at registered
      · cases registered
      · next nonempty =>
        cases registered
        refine ⟨coherent.symmetric, coherent.irreflexive, ?_, ?_⟩
        · -- the new type is not registered yet
          rw [List.map_append, List.nodup_append]
          refine ⟨coherent.typesOnce, by simp, ?_⟩
          intro a member b new same
          obtain ⟨entry, old, rfl⟩ := List.mem_map.mp member
          rw [List.map_singleton, List.mem_singleton] at new
          subst new
          exact absent (List.any_eq_true.mpr ⟨entry, old, by simp [same]⟩)
        · intro entry member
          rcases List.mem_append.mp member with old | new
          · exact coherent.entries entry old
          · rw [List.mem_singleton.mp new]
            exact ⟨by simpa using nonempty, family⟩

theorem Coherent.perform (coherent : t.Coherent) (c : Registration) : (t.perform c).Coherent := by
  unfold Equivalences.perform
  split
  · next t' registered =>
    cases c with
    | association ty perms => exact coherent.registerAssociation registered
    | compatibility a b => exact coherent.registerCompatibility registered
  · exact coherent

theorem Coherent.registerAll (coherent : t.Coherent) (calls : List Registration) :
    (t.registerAll calls).Coherent := by
  induction calls generalizing t with
  | nil => exact coherent
  | cons c rest ih => exact ih (coherent.perform c)

end Steps

section Answers

variable {t : Equivalences}

theorem Coherent.isCompatible_comm (coherent : t.Coherent) (a b : String) :
    t.isCompatible a b = t.isCompatible b a := by
  have swap : ∀ x y, t.isCompatible x y = true → t.isCompatible y x = true := fun x y known => by
    simpa [isCompatible] using coherent.symmetric (x, y) (by simpa [isCompatible] using known)
  exact Bool.eq_iff_iff.mpr ⟨swap a b, swap b a⟩

theorem Coherent.isCompatible_self (coherent : t.Coherent) (a : String) :
    t.isCompatible a a = false := by
  cases known : t.isCompatible a a with
  | false => rfl
  | true => exact absurd rfl (coherent.irreflexive (a, a) (by simpa [isCompatible] using known))

/-- Coherent tables are well formed: a permutation of an entry's arity has that length. -/
theorem Coherent.wellFormed (coherent : t.Coherent) : t.WellFormed := by
  intro entry member perm inEntry
  obtain ⟨nonempty, family⟩ := coherent.entries entry member
  obtain ⟨n, arity⟩ := family.arity nonempty
  have reorders := arity perm inEntry
  rw [Permutation.isValid_iff, reorders.length_eq, List.length_range]
  exact reorders

theorem permutations_of_unregistered (unregistered : ∀ entry ∈ t.associations, entry.1 ≠ ty)
    (k : Nat) : t.permutations ty k = [Permutation.identity k] := by
  have missing : t.associations.find? (·.1 == ty) = none :=
    List.find?_eq_none.mpr fun entry member => by simpa using unregistered entry member
  simp [permutations, missing]

theorem Coherent.permutations_of_mem (coherent : t.Coherent) {perms : List Permutation}
    (member : (ty, perms) ∈ t.associations) (k : Nat) :
    t.permutations ty k = perms.filter (·.length == k) := by
  obtain ⟨entry, found⟩ : ∃ entry, t.associations.find? (·.1 == ty) = some entry :=
    Option.isSome_iff_exists.mp (List.find?_isSome.mpr ⟨_, member, by simp⟩)
  have key : entry.1 = ty := by simpa using List.find?_some found
  have same : entry = (ty, perms) :=
    List.inj_on_of_nodup_map coherent.typesOnce (List.mem_of_find?_eq_some found) member key
  simp [permutations, found, same]

theorem Coherent.nodup_permutations (coherent : t.Coherent) (ty : String) (k : Nat) :
    (t.permutations ty k).Nodup := by
  unfold permutations
  split
  · next entry found =>
    exact (coherent.entries _ (List.mem_of_find?_eq_some found)).2.1.filter _
  · exact List.nodup_singleton _

theorem admissible_of_sameType {this other : Op} {align : Permutation → Bool}
    (same : this.opType = other.opType) (arity : this.inputs.length = other.inputs.length) :
    t.admissible this other align = (t.permutations this.opType this.inputs.length).filter align := by
  simp [admissible, proposals, same, arity]

theorem admissible_of_compatible {this other : Op} {align : Permutation → Bool}
    (differ : this.opType ≠ other.opType) (compatible : t.isCompatible this.opType other.opType = true) :
    t.admissible this other align =
      [Permutation.identity (min this.inputs.length other.inputs.length)].filter align := by
  simp [admissible, proposals, differ, compatible, Permutation.identity]

theorem admissible_eq_nil {this other : Op} {align : Permutation → Bool}
    (arity : this.opType = other.opType → this.inputs.length ≠ other.inputs.length)
    (unrelated : this.opType ≠ other.opType → t.isCompatible this.opType other.opType = false) :
    t.admissible this other align = [] := by
  by_cases same : this.opType = other.opType
  · simp [admissible, proposals, same, arity same]
  · simp [admissible, proposals, same, unrelated same]

end Answers

end Equivalences

open Equivalences in
/-- The equivalence tables stay coherent through any run of registrations: compatibility is
symmetric and irreflexive, each entry is a non-empty family of distinct permutations of one arity,
and admissible permutations are the registered ones that align, or the identity. -/
theorem registrations_keep_tables_coherent (start : Equivalences)
    (origin : start = empty ∨ start = defaults) (calls : List Registration) :
    let t := start.registerAll calls
    (∀ a b, t.isCompatible a b = t.isCompatible b a) ∧ (∀ a, t.isCompatible a a = false) ∧
    (∀ entry ∈ t.associations,
      entry.2 ≠ [] ∧ entry.2.Nodup ∧ ∃ n, ∀ perm ∈ entry.2, perm.Perm (List.range n)) ∧
    (∀ ty k, (∀ entry ∈ t.associations, entry.1 ≠ ty) →
      t.permutations ty k = [Permutation.identity k]) ∧
    (∀ ty k, (t.permutations ty k).Nodup ∧ ∀ perm ∈ t.permutations ty k, perm.Perm (List.range k)) ∧
    (∀ this other align, this.opType = other.opType → this.inputs.length = other.inputs.length →
      (∀ perm ∈ t.admissible this other align,
        perm.Perm (List.range this.inputs.length) ∧ align perm = true) ∧
      ∀ perms, (this.opType, perms) ∈ t.associations → (t.admissible this other align).Sublist perms) ∧
    (∀ this other align, this.opType ≠ other.opType →
      t.isCompatible this.opType other.opType = true →
      (t.admissible this other align).Sublist
        [Permutation.identity (min this.inputs.length other.inputs.length)]) ∧
    (∀ this other align, (this.opType = other.opType → this.inputs.length ≠ other.inputs.length) →
      (this.opType ≠ other.opType → t.isCompatible this.opType other.opType = false) →
      t.admissible this other align = []) ∧
    (∀ this other, this.opType ≠ other.opType → t.isCompatible this.opType other.opType = false →
      t.query this other (fun _ => true) = none) := by
  intro t
  have coherent : t.Coherent := by
    rcases origin with rfl | rfl
    · exact empty_coherent.registerAll calls
    · exact defaults_coherent.registerAll calls
  refine ⟨coherent.isCompatible_comm, coherent.isCompatible_self, ?_,
    fun ty k unregistered => permutations_of_unregistered unregistered k, fun ty k =>
      ⟨coherent.nodup_permutations ty k, fun perm => mem_permutations coherent.wellFormed⟩,
    ?_, ?_, fun this other align => admissible_eq_nil, ?_⟩
  · intro entry member
    obtain ⟨nonempty, family⟩ := coherent.entries entry member
    exact ⟨nonempty, family.1, family.arity nonempty⟩
  · intro this other align same equal
    rw [admissible_of_sameType same equal]
    refine ⟨fun perm member => ?_, fun perms registered => ?_⟩
    · obtain ⟨offered, passes⟩ := List.mem_filter.mp member
      exact ⟨mem_permutations coherent.wellFormed offered, passes⟩
    · rw [coherent.permutations_of_mem registered]
      exact (List.filter_sublist).trans List.filter_sublist
  · intro this other align differ compatible
    rw [admissible_of_compatible differ compatible]
    exact List.filter_sublist
  · intro this other differ unrelated
    rw [query, admissible_eq_nil (fun same => absurd same differ) (fun _ => unrelated)]
    rfl

/-- Register `Concat` (with a repeat), then try to register `Add` again, a non-permutation for
`Pad`, and a pair that is already compatible, and finally pair `Relu` with `Sigmoid`. -/
def registryCalls : List Equivalences.Registration :=
  [.association "Concat" [[0, 1, 2], [2, 1, 0], [0, 1, 2]], .association "Add" [[0, 1]],
    .association "Pad" [[0, 1], [0, 0]], .compatibility "Relu" "QuantizedRelu",
    .compatibility "Relu" "Sigmoid"]

/-- After these registrations on the built-in tables, `Sigmoid` is compatible with `Relu` because
the other direction was registered, and `Relu` still stands for no `Tanh`. -/
theorem registryCalls_keep_builtins_coherent :
    (Equivalences.defaults = Equivalences.empty ∨ Equivalences.defaults = Equivalences.defaults) ∧
      (Equivalences.defaults.registerAll registryCalls).isCompatible "Sigmoid" "Relu" = true ∧
      (Equivalences.defaults.registerAll registryCalls).query ⟨"r", "Relu", ["x:0"], [], []⟩
        ⟨"t", "Tanh", ["x:0"], [], []⟩ (fun _ => true) = none := by
  obtain ⟨symmetric, -, -, -, -, -, -, -, incompatible⟩ :=
    registrations_keep_tables_coherent Equivalences.defaults (Or.inr rfl) registryCalls
  refine ⟨Or.inr rfl, ?_, incompatible _ _ (by decide) (by decide +kernel)⟩
  rw [symmetric]
  decide +kernel

end OpGraph
