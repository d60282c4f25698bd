import OpGraph.Graph.Basic
import OpGraph.Pattern.Equivalence

namespace OpGraph

/-- Set the value of a key, in place when the key is present, else at the end. -/
def setPair [BEq α] (pairs : List (α × β)) (k : α) (v : β) : List (α × β) :=
  if pairs.any (·.1 == k) then pairs.map fun (a, b) => if a == k then (a, v) else (a, b)
  else pairs ++ [(k, v)]

/-- The value of a key. -/
def lookupPair [BEq α] (pairs : List (α × β)) (k : α) : Option β :=
  (pairs.find? (·.1 == k)).map (·.2)

/-- A partial correspondence between a pattern and a subject: the op pairs and tensor pairs in
the order they were made, and the owner tables giving, for each claimed subject op and tensor, the
pattern op or tensor it was paired with. -/
structure Binding where
  ops : List (Nat × Nat)
  opOwners : List (Nat × Nat)
  tensors : List (String × String)
  tensorOwners : List (String × String)
  deriving DecidableEq, Repr

namespace Binding

def empty : Binding := ⟨[], [], [], []⟩

def isBound (b : Binding) (p : Nat) : Bool := b.ops.any (·.1 == p)

/-- Whether a subject op is bound to some pattern op. -/
def isClaimed (b : Binding) (s : Nat) : Bool := b.opOwners.any (·.1 == s)

def subjectOp? (b : Binding) (p : Nat) : Option Nat := lookupPair b.ops p

def subjectTensor? (b : Binding) (pt : String) : Option String := lookupPair b.tensors pt

/-- Whether pairing two tensors keeps the tensor pairing bijective. -/
def tensorAgrees (b : Binding) (pt st : String) : Bool :=
  match b.subjectTensor? pt with
  | some bound => bound == st
  | none => !b.tensorOwners.any (·.1 == st)

/-- Whether `perm` lines the operands up with the pairs made so far: pattern operand `perm[k]`
with subject operand `k`, each existing and agreeing. -/
def aligns (b : Binding) (patternInputs subjectInputs : List String) (perm : Permutation) : Bool :=
  perm.zipIdx.all fun (j, k) =>
    match patternInputs[j]?, subjectInputs[k]? with
    | some pt, some st => b.tensorAgrees pt st
    | _, _ => false

/-- Bind an op pair with the tensor pairs it implies, each pair entered in its owner table too;
`none` when the subject op has another owner or a tensor pair breaks the pairing. -/
def bind (b : Binding) (p s : Nat) (pairs : List (String × String)) : Option Binding :=
  if (lookupPair b.opOwners s).any (· != p) then none
  else
    pairs.foldlM (fun (acc : Binding) (pt, st) =>
      if acc.tensorAgrees pt st then
        some { acc with tensors := setPair acc.tensors pt st,
                        tensorOwners := setPair acc.tensorOwners st pt }
      else none) { b with ops := setPair b.ops p s, opOwners := setPair b.opOwners s p }

/-- Whether two bindings hold the same pairs, whatever the order they were made in. -/
def samePairs (a b : Binding) : Bool :=
  a.ops.length == b.ops.length && a.ops.all b.ops.contains &&
    a.tensors.length == b.tensors.length && a.tensors.all b.tensors.contains

end Binding

/-- A complete occurrence of a pattern, by names: op pairs and tensor pairs in binding order. -/
structure GraphMatch where
  ops : List (String × String)
  tensors : List (String × String)
  deriving DecidableEq, Repr

namespace GraphMatch

def ofBinding (pattern subject : Graph) (b : Binding) : GraphMatch :=
  ⟨b.ops.map fun (p, s) => ((pattern.opAt p).name, (subject.opAt s).name), b.tensors⟩

def subjectOp? (m : GraphMatch) (p : String) : Option String := lookupPair m.ops p

def patternOp? (m : GraphMatch) (s : String) : Option String :=
  (m.ops.find? (·.2 == s)).map (·.1)

def subjectTensor? (m : GraphMatch) (pt : String) : Option String := lookupPair m.tensors pt

def patternTensor? (m : GraphMatch) (st : String) : Option String :=
  (m.tensors.find? (·.2 == st)).map (·.1)

def subjectOpNames (m : GraphMatch) : List String := m.ops.map (·.2)

def size (m : GraphMatch) : Nat := m.ops.length

end GraphMatch

end OpGraph
