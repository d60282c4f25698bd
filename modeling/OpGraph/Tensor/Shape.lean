namespace OpGraph

/-- One dimension of a shape. -/
inductive Dim where
  | fixed (size : Nat)
  | dynamic
  deriving DecidableEq, Repr, Inhabited

namespace Dim

/-- The size of a fixed dim. -/
def value? : Dim → Option Nat
  | fixed n => some n
  | dynamic => none

/-- A negative number stands for a dynamic dim. -/
def ofInt (v : Int) : Dim :=
  if v < 0 then dynamic else fixed v.toNat

/-- The dim as a signed 64-bit number: dynamic is `-1`, and a size of `2 ^ 63` or more wraps. -/
def signed : Dim → Int
  | fixed n => if n < Nat.pow 2 63 then n else (n : Int) - Int.pow 2 64
  | dynamic => -1

/-- A fixed dim prints its size and a dynamic one prints `?`. -/
def render : Dim → String
  | fixed n => toString n
  | dynamic => "?"

end Dim

/-- A tensor shape; `none` is an unknown rank. -/
structure Shape where
  dims : Option (List Dim)
  deriving DecidableEq, Repr, Inhabited

namespace Shape

/-- The shape of unknown rank, also the default shape. -/
def unknown : Shape := ⟨none⟩

/-- The rank-zero shape. -/
def scalar : Shape := ⟨some []⟩

/-- A shape whose dims are all fixed. -/
def fixed (sizes : List Nat) : Shape := ⟨some (sizes.map Dim.fixed)⟩

/-- A known shape read from signed numbers, negative ones dynamic. -/
def ofInts (vs : List Int) : Shape := ⟨some (vs.map Dim.ofInt)⟩

def rank? (s : Shape) : Option Nat := s.dims.map List.length

def isKnown (s : Shape) : Bool := s.dims.isSome

/-- An unknown rank counts as dynamic, as does any dynamic dim. -/
def isDynamic (s : Shape) : Bool :=
  match s.dims with
  | none => true
  | some ds => ds.any (· == Dim.dynamic)

/-- Product of fixed sizes; `none` as soon as one dim is dynamic. -/
def dimsProduct : List Dim → Option Nat
  | [] => some 1
  | d :: ds => do
    let n ← d.value?
    let m ← dimsProduct ds
    pure (n * m)

/-- The number of elements: the exact product of the dims, `none` if any is unknown. -/
def numel (s : Shape) : Option Nat := s.dims.bind dimsProduct

/-- The element count taken as a running product in a 64-bit word, from the left and starting at
`acc`: no count at the first dynamic dim, and an overflow (`.error ()`) as soon as a partial product
does not fit, even if a dynamic or zero dim comes later. -/
def wordCount : Nat → List Dim → Except Unit (Option Nat)
  | acc, [] => .ok (some acc)
  | _, .dynamic :: _ => .ok none
  | acc, .fixed n :: rest => if acc * n < Nat.pow 2 64 then wordCount (acc * n) rest else .error ()

/-- The element count as a 64-bit program computes it; it agrees with `numel` unless it
overflows. -/
def wordNumel (s : Shape) : Except Unit (Option Nat) :=
  match s.dims with
  | none => .ok none
  | some ds => wordCount 1 ds

/-- How an overflowing element count is reported. -/
def overflowText : String := "attempt to multiply with overflow"

/-- `<unknown>`, or the dims in brackets separated by a comma and a blank. -/
def render (s : Shape) : String :=
  match s.dims with
  | none => "<unknown>"
  | some ds => "[" ++ ", ".intercalate (ds.map Dim.render) ++ "]"

theorem dimsProduct_eq_some_iff (ds : List Dim) (n : Nat) :
    dimsProduct ds = some n ↔
      ∃ sizes : List Nat, ds = sizes.map Dim.fixed ∧ n = sizes.foldr (· * ·) 1 := by
  induction ds generalizing n with
  | nil => simp [dimsProduct, eq_comm]
  | cons d ds ih =>
    cases d with
    | dynamic =>
      simp only [dimsProduct, Dim.value?, Option.bind_eq_bind, Option.bind_none, reduceCtorEq,
        false_iff, not_exists, not_and]
      intro sizes h
      cases sizes <;> simp at h
    | fixed a =>
      constructor
      · intro h
        simp only [dimsProduct, Dim.value?, Option.bind_eq_bind, Option.bind_some] at h
        cases hm : dimsProduct ds with
        | none => simp [hm] at h
        | some m =>
          simp only [hm, Option.bind_some, Option.pure_def, Option.some.injEq] at h
          obtain ⟨sizes, rfl, rfl⟩ := (ih m).1 hm
          exact ⟨a :: sizes, rfl, by simp [h]⟩
      · rintro ⟨sizes, hs, rfl⟩
        cases sizes with
        | nil => simp at hs
        | cons b rest =>
          simp only [List.map_cons, List.cons.injEq, Dim.fixed.injEq] at hs
          obtain ⟨rfl, rfl⟩ := hs
          have := (ih (rest.foldr (· * ·) 1)).2 ⟨rest, rfl, rfl⟩
          simp [dimsProduct, Dim.value?, this]

end Shape

end OpGraph
