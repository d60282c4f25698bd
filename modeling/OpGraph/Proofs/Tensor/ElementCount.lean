import Mathlib
import OpGraph.Tensor.Shape

namespace OpGraph

namespace Shape

/-- Some running product of the leading fixed dims does not fit a 64-bit word. -/
def Overflows (s : Shape) : Prop :=
  ∃ (ds : List Dim) (sizes : List Nat),
    s.dims = some ds ∧ sizes.map Dim.fixed <+: ds ∧ 2 ^ 64 ≤ sizes.foldr (· * ·) 1

theorem dimsProduct_eq_none_iff (ds : List Dim) : dimsProduct ds = none ↔ Dim.dynamic ∈ ds := by
  induction ds with
  | nil => simp [dimsProduct]
  | cons d rest ih =>
    cases d with
    | dynamic => simp [dimsProduct, Dim.value?]
    | fixed n =>
      cases product : dimsProduct rest with
      | none => simp [dimsProduct, Dim.value?, product, ← ih]
      | some m => simp [dimsProduct, Dim.value?, product, ← ih]

/-- One fixed dim: the running product times it, if that fits the word. -/
theorem wordCount_fixed (acc n : Nat) (rest : List Dim) :
    wordCount acc (.fixed n :: rest) =
      if acc * n < 2 ^ 64 then wordCount (acc * n) rest else .error () := rfl

/-- The sizes of a run of leading fixed dims: none, or a first fixed dim and a run after it. -/
theorem map_fixed_prefix_cons {sizes : List Nat} {d : Dim} {rest : List Dim} :
    sizes.map Dim.fixed <+: d :: rest ↔
      sizes = [] ∨ ∃ n more, sizes = n :: more ∧ d = .fixed n ∧ more.map Dim.fixed <+: rest := by
  cases sizes with
  | nil => simp
  | cons n more =>
    simp only [List.map_cons, List.cons_prefix_cons, reduceCtorEq, List.cons.injEq, false_or]
    constructor
    · rintro ⟨rfl, after⟩
      exact ⟨n, more, ⟨rfl, rfl⟩, rfl, after⟩
    · rintro ⟨_, _, ⟨rfl, rfl⟩, rfl, after⟩
      exact ⟨rfl, after⟩

/-- From a running product `acc` that fits, the count overflows exactly when a running product of
the leading fixed dims times `acc` does not fit, and otherwise is `acc` times the exact product. The
induction follows the dims, carrying the running product. -/
theorem wordCount_cases (ds : List Dim) : ∀ acc : Nat, acc < 2 ^ 64 →
    ((∃ sizes : List Nat, sizes.map Dim.fixed <+: ds ∧ 2 ^ 64 ≤ acc * sizes.foldr (· * ·) 1) ∧
        wordCount acc ds = .error ()) ∨
      ((¬ ∃ sizes : List Nat, sizes.map Dim.fixed <+: ds ∧ 2 ^ 64 ≤ acc * sizes.foldr (· * ·) 1) ∧
        wordCount acc ds = .ok ((dimsProduct ds).map (acc * ·))) := by
  induction ds with
  | nil =>
    intro acc fits
    refine .inr ⟨?_, by simp [wordCount, dimsProduct]⟩
    rintro ⟨sizes, empty, tooBig⟩
    rw [List.prefix_nil, List.map_eq_nil_iff] at empty
    subst empty
    simp at tooBig
    omega
  | cons d rest ih =>
    intro acc fits
    cases d with
    | dynamic =>
      -- no fixed dim leads, so the only running product is `acc` itself
      refine .inr ⟨?_, by simp [wordCount, dimsProduct, Dim.value?]⟩
      rintro ⟨sizes, leading, tooBig⟩
      rcases map_fixed_prefix_cons.mp leading with rfl | ⟨_, _, _, wrong, _⟩
      · simp at tooBig
        omega
      · cases wrong
    | fixed n =>
      by_cases small : acc * n < 2 ^ 64
      · have step : wordCount acc (.fixed n :: rest) = wordCount (acc * n) rest := by
          rw [wordCount_fixed, if_pos small]
        have product : (dimsProduct (.fixed n :: rest)).map (acc * ·) =
            (dimsProduct rest).map (acc * n * ·) := by
          cases known : dimsProduct rest <;> simp [dimsProduct, Dim.value?, known, Nat.mul_assoc]
        -- a running product of these dims is `acc`, or one of the rest's times `acc * n`
        have shifted : (∃ sizes : List Nat, sizes.map Dim.fixed <+: .fixed n :: rest ∧
              2 ^ 64 ≤ acc * sizes.foldr (· * ·) 1) ↔
            ∃ sizes : List Nat, sizes.map Dim.fixed <+: rest ∧
              2 ^ 64 ≤ acc * n * sizes.foldr (· * ·) 1 := by
          constructor
          · rintro ⟨sizes, leading, tooBig⟩
            rcases map_fixed_prefix_cons.mp leading with rfl | ⟨_, more, rfl, same, after⟩
            · simp at tooBig
              omega
            · cases same
              exact ⟨more, after, by simpa [Nat.mul_assoc] using tooBig⟩
          · rintro ⟨more, after, tooBig⟩
            exact ⟨n :: more, map_fixed_prefix_cons.mpr (.inr ⟨n, more, rfl, rfl, after⟩),
              by simpa [Nat.mul_assoc] using tooBig⟩
        rw [step, product, shifted]
        exact ih (acc * n) small
      · refine .inl ⟨⟨[n], by simp, by simpa using small⟩, ?_⟩
        rw [wordCount_fixed, if_neg small]

/-- The element count as a 64-bit program computes it. It panics exactly when a running product of
the leading fixed dims does not fit the word; otherwise it is the exact product when every dim is
fixed, and no count when the rank is unknown or a dim is dynamic. -/
theorem element_count_exact_unless_running_product_overflows (s : Shape) :
    (s.wordNumel = .error () ↔ s.Overflows) ∧
      (∀ n, s.wordNumel = .ok (some n) ↔
        ¬ s.Overflows ∧
          ∃ sizes : List Nat, s.dims = some (sizes.map Dim.fixed) ∧ n = sizes.foldr (· * ·) 1) ∧
      (s.wordNumel = .ok none ↔
        ¬ s.Overflows ∧ (s.dims = none ∨ ∃ ds, s.dims = some ds ∧ Dim.dynamic ∈ ds)) := by
  rcases s with ⟨_ | ds⟩
  · have never : ¬ Shape.Overflows ⟨none⟩ := fun ⟨_, _, unknown, _⟩ => by cases unknown
    simp [wordNumel, never]
  · have overflows : Shape.Overflows ⟨some ds⟩ ↔
        ∃ sizes : List Nat, sizes.map Dim.fixed <+: ds ∧ 2 ^ 64 ≤ 1 * sizes.foldr (· * ·) 1 := by
      simp [Overflows]
    rcases wordCount_cases ds 1 (by decide) with ⟨tooBig, counted⟩ | ⟨fits, counted⟩
    · have overflowed := overflows.mpr tooBig
      simp [wordNumel, counted, overflowed]
    · have fits' : ¬ Shape.Overflows ⟨some ds⟩ := fun tooBig => fits (overflows.mp tooBig)
      simp only [wordNumel, counted, fits', not_false_eq_true, true_and, Nat.one_mul,
        Option.map_id', reduceCtorEq, Option.some.injEq, false_or, exists_eq_left']
      refine ⟨fun n => ?_, ?_⟩
      · rw [Except.ok.injEq, dimsProduct_eq_some_iff]
      · rw [Except.ok.injEq, dimsProduct_eq_none_iff]

/-- Two dims of `2 ^ 40` overflow the running product before the zero dim is reached: the exact
count is `0`, and the program panics. -/
theorem zero_dim_after_overflow_panics :
    (Shape.fixed [2 ^ 40, 2 ^ 40, 0]).numel = some 0 ∧
      (Shape.fixed [2 ^ 40, 2 ^ 40, 0]).wordNumel = .error () :=
  ⟨rfl, rfl⟩

end Shape

end OpGraph
