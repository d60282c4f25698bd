import Mathlib.Data.Multiset.DershowitzManna
import OpGraph.Pattern.Matcher

namespace OpGraph

/-- One pending branch of the search: the binding made along it and the position in the
consumption order of the op it binds next. -/
structure SearchState where
  binding : Binding
  cursor : Nat

namespace SearchState

/-- Where the search starts: nothing bound, at the start of the order. -/
def root : SearchState := ⟨Binding.empty, 0⟩

/-- The state after this one, carrying the binding it led to. -/
def advance (st : SearchState) (b : Binding) : SearchState := ⟨b, st.cursor + 1⟩

end SearchState

namespace Matcher

/-- Pop a state: count it, then record its binding when no op is left (as exploring a state with
nothing below it does), pass it on when its op is bound, else yield one state per extension. -/
def visit (m : Matcher) (subject : Graph) (st : SearchState) (tally : SearchTally) :
    List SearchState × SearchTally :=
  match m.order[st.cursor]? with
  | none => ([], m.explore subject 0 st.binding st.cursor tally)
  | some p =>
    let tally := { tally with explored := tally.explored + 1 }
    if st.binding.isBound p then ([st.advance st.binding], tally)
    else ((m.expand subject st.binding p).map st.advance, tally)

/-- One turn of the search loop: pop the top state and push what visiting it yields. -/
def step (m : Matcher) (subject : Graph) :
    List SearchState × SearchTally → List SearchState × SearchTally
  | ([], tally) => ([], tally)
  | (st :: rest, tally) => ((m.visit subject st tally).1 ++ rest, (m.visit subject st tally).2)

/-- How many ops of the order a state has left to bind. -/
def depth (m : Matcher) (st : SearchState) : Nat := m.order.length - st.cursor

/-- A visit yields states only before the end of the order, each one op further on. -/
theorem mem_visit {m : Matcher} {subject : Graph} {st c : SearchState} {tally : SearchTally}
    (member : c ∈ (m.visit subject st tally).1) :
    st.cursor < m.order.length ∧ c.cursor = st.cursor + 1 := by
  unfold visit at member
  split at member
  · simp at member
  · next p atCursor =>
    have before : st.cursor < m.order.length := (List.getElem?_eq_some_iff.mp atCursor).1
    split at member
    · simp only [List.mem_singleton] at member
      exact ⟨before, by rw [member]; rfl⟩
    · obtain ⟨b, -, rfl⟩ := List.mem_map.mp member
      exact ⟨before, rfl⟩

theorem depth_lt_of_mem_visit {m : Matcher} {subject : Graph} {st c : SearchState}
    {tally : SearchTally} (member : c ∈ (m.visit subject st tally).1) : m.depth c < m.depth st := by
  obtain ⟨before, next⟩ := mem_visit member
  simp only [depth, next]
  omega

/-- A turn replaces the popped state's depth by smaller ones: the stack's depths fall in the
Dershowitz–Manna order. -/
theorem step_depths_lt (m : Matcher) (subject : Graph) (st : SearchState)
    (rest : List SearchState) (tally : SearchTally) :
    Multiset.IsDershowitzMannaLT
      (((m.step subject (st :: rest, tally)).1.map m.depth : List Nat) : Multiset Nat)
      ((st :: rest).map m.depth) := by
  refine ⟨rest.map m.depth, (m.visit subject st tally).1.map m.depth, {m.depth st}, by simp,
    ?_, ?_, ?_⟩
  · simp only [step, List.map_append, ← Multiset.coe_add, add_comm]
  · simp only [List.map_cons, ← Multiset.cons_coe]
    rw [add_comm, Multiset.singleton_add]
  · intro d member
    obtain ⟨c, pushed, rfl⟩ := List.mem_map.mp (Multiset.mem_coe.mp member)
    exact ⟨m.depth st, Multiset.mem_singleton_self _, depth_lt_of_mem_visit pushed⟩

/-- The search loop: while the stack holds a state, take a turn. -/
def search (m : Matcher) (subject : Graph) : List SearchState × SearchTally → SearchTally
  | ([], tally) => tally
  | (st :: rest, tally) => m.search subject (m.step subject (st :: rest, tally))
termination_by run => ((run.1.map m.depth : List Nat) : Multiset Nat)
decreasing_by exact m.step_depths_lt subject st rest tally

end Matcher

end OpGraph
