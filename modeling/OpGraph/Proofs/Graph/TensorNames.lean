import Mathlib
import OpGraph.Graph.Op

namespace OpGraph

/-- A text without a colon, put after a colon, is split off at that colon. -/
theorem splitAtLastColon_append (op : String) {index : String} (plain : ':' ∉ index.toList) :
    splitAtLastColon (op ++ ":" ++ index) = some (op, index) := by
  have whole : (op ++ ":" ++ index).toList = op.toList ++ ':' :: index.toList := by simp
  -- read from the end, the first colon is the one right after `op`
  have found : (op.toList ++ ':' :: index.toList).reverse.findIdx? (· = ':') =
      some index.length := by
    have none : index.toList.reverse.findIdx? (· = ':') = none := by
      refine List.findIdx?_eq_none_iff.mpr fun c member => ?_
      simp only [decide_eq_false_iff_not]
      rintro rfl
      exact plain (List.mem_reverse.mp member)
    rw [List.reverse_append, List.reverse_cons, List.append_assoc, List.findIdx?_append, none]
    simp [List.findIdx?_cons, String.length_toList]
  have position : (op.toList ++ ':' :: index.toList).length - 1 - index.length = op.length := by
    simp [String.length_toList]
  simp only [splitAtLastColon, whole, found, position]
  simp [List.drop_append, String.length_toList]

/-- The digits of a number read back as that number. -/
theorem foldl_toDigits (i : Nat) :
    (Nat.toDigits 10 i).foldl (fun n c => n * 10 + (c.toNat - 48)) 0 = i := by
  have same : (fun n c => n * 10 + (c.toNat - 48)) =
      fun (sofar : Nat) (c : Char) => 10 * sofar + (c.toNat - '0'.toNat) := by
    funext n c
    rw [Nat.mul_comm]
    rfl
  rw [same, ← Nat.ofDigitChars_eq_foldl, Nat.ofDigitChars_ten_toDigits]

/-- Decimal printing of a number that fits a word gives a machine-word numeral. -/
theorem isWordNumeral_toString {i : Nat} (fits : i < 2 ^ 64) :
    isWordNumeral (toString i) = true := by
  have digit : ∀ c ∈ Nat.toDigits 10 i, c.isDigit = true :=
    fun c member => Nat.isDigit_of_mem_toDigits (by decide) (by decide) member
  simp only [isWordNumeral, Nat.toString_eq_repr, Nat.toList_repr]
  generalize printed : Nat.toDigits 10 i = ds at digit
  split
  · next rest =>
    -- a digit is never a sign
    exact absurd (digit '+' List.mem_cons_self) (by decide)
  · subst printed
    simp [Nat.toDigits_ne_nil, foldl_toDigits]
    exact ⟨digit, fits⟩

/-- A tensor named for output `i` of `op` reports `op`. -/
theorem conventionalProducer_tensorName (op : String) {i : Nat} (fits : i < 2 ^ 64)
    (dtype : DType) (shape : Shape) :
    Tensor.conventionalProducer ⟨tensorName op i, dtype, shape⟩ = op := by
  have plain : ':' ∉ (toString i).toList := by
    intro colon
    simp only [Nat.toString_eq_repr, Nat.toList_repr] at colon
    exact absurd (Nat.isDigit_of_mem_toDigits (by decide) (by decide) colon) (by decide)
  have split := splitAtLastColon_append op plain
  simp only [Tensor.conventionalProducer, tensorName, split, isWordNumeral_toString fits, if_true]

/-- The conventional producer inverts canonical naming: a tensor named for output `i` of `op`
reports `op`, for every op name, colons and trailing digits included, and every word-sized index;
so the output `withOutput` appends reports the op it was appended to. -/
theorem conventional_producer_inverts_tensor_name :
    (∀ (op : String) (i : Nat), i < 2 ^ 64 → ∀ (dtype : DType) (shape : Shape),
      Tensor.conventionalProducer ⟨tensorName op i, dtype, shape⟩ = op) ∧
    (∀ (o : Op), o.outputs.length < 2 ^ 64 → ∀ (dtype : DType) (shape : Shape),
      ((o.withOutput dtype shape).outputs.getLast?).map Tensor.conventionalProducer =
        some o.name) := by
  refine ⟨fun op i fits dtype shape => conventionalProducer_tensorName op fits dtype shape,
    fun o fits dtype shape => ?_⟩
  simp [Op.withOutput, conventionalProducer_tensorName o.name fits]

/-- An op name with a colon and a trailing digit, with the second output of an op so named. -/
theorem colonDigitName_read_back :
    (10 < 2 ^ 64 ∧ Tensor.conventionalProducer ⟨tensorName "conv:2" 10, .float, ⟨none⟩⟩ = "conv:2") ∧
      ((⟨"conv:2", "Conv2D", [], [⟨"conv:2:0", .float, ⟨none⟩⟩], []⟩ : Op).outputs.length < 2 ^ 64 ∧
        (((⟨"conv:2", "Conv2D", [], [⟨"conv:2:0", .float, ⟨none⟩⟩], []⟩ : Op).withOutput .float
          ⟨none⟩).outputs.getLast?).map Tensor.conventionalProducer = some "conv:2") :=
  ⟨⟨by decide, conventional_producer_inverts_tensor_name.1 "conv:2" 10 (by decide) .float ⟨none⟩⟩,
    ⟨by decide, conventional_producer_inverts_tensor_name.2 _ (by decide) .float ⟨none⟩⟩⟩

end OpGraph
