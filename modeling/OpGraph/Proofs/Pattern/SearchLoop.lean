import Mathlib
import OpGraph.Pattern.SearchState

namespace OpGraph

namespace Matcher

variable (m : Matcher) (S : Graph)

theorem search_nil (tally : SearchTally) : m.search S ([], tally) = tally := by
  rw [search]

theorem search_cons (st : SearchState) (rest : List SearchState) (tally : SearchTally) :
    m.search S (st :: rest, tally) =
      m.search S ((m.visit S st tally).1 ++ rest, (m.visit S st tally).2) := by
  rw [search]
  rfl

/-- Every turn counts one state. -/
theorem step_explored (st : SearchState) (rest : List SearchState) (tally : SearchTally) :
    (m.step S (st :: rest, tally)).2.explored = tally.explored + 1 := by
  show (m.visit S st tally).2.explored = tally.explored + 1
  unfold visit
  split
  · simp only [explore]
    split <;> rfl
  · split <;> rfl

theorem visit_of_depth_eq_zero {st : SearchState} (ended : m.depth st = 0) (tally : SearchTally) :
    m.visit S st tally = ([], m.explore S 0 st.binding st.cursor tally) := by
  have past : m.order[st.cursor]? = none := by
    simp only [depth] at ended
    exact List.getElem?_eq_none (by omega)
  simp only [visit, past]

/-- Popping sibling states with `d` ops left each, given that popping one explores it, explores
them in order. -/
theorem search_siblings {d : Nat}
    (popped : ∀ st, m.depth st = d → ∀ rest tally,
      m.search S (st :: rest, tally) = m.search S (rest, m.explore S d st.binding st.cursor tally))
    (st : SearchState) (further : ∀ b, m.depth (st.advance b) = d) :
    ∀ (children : List Binding) (rest : List SearchState) (tally : SearchTally),
      m.search S (children.map st.advance ++ rest, tally) =
        m.search S (rest, children.foldl (fun acc child => m.explore S d child (st.cursor + 1) acc)
          tally)
  | [], rest, tally => rfl
  | child :: children, rest, tally => by
    rw [List.map_cons, List.cons_append, popped _ (further child)]
    exact search_siblings popped st further children rest _

/-- Popping a state with `d` ops left, and then everything pushed above it, does what exploring it
with `d` ops left does; the states below it are popped afterwards. -/
theorem search_cons_eq_explore (d : Nat) :
    ∀ (st : SearchState), m.depth st = d → ∀ (rest : List SearchState) (tally : SearchTally),
      m.search S (st :: rest, tally) = m.search S (rest, m.explore S d st.binding st.cursor tally) := by
  induction d with
  | zero =>
    intro st ended rest tally
    rw [search_cons, visit_of_depth_eq_zero m S ended, List.nil_append]
  | succ d ih =>
    intro st deep rest tally
    have inside : st.cursor < m.order.length := by
      simp only [depth] at deep
      omega
    obtain ⟨p, atCursor⟩ : ∃ p, m.order[st.cursor]? = some p :=
      ⟨_, List.getElem?_eq_getElem inside⟩
    -- whatever the visit pushes has one op less to bind
    have further : ∀ b, m.depth (st.advance b) = d := by
      intro b
      simp only [depth, SearchState.advance] at deep ⊢
      omega
    rw [search_cons]
    cases bound : st.binding.isBound p with
    | true =>
      simp only [visit, explore, atCursor, bound, if_true, List.singleton_append]
      exact ih _ (further _) rest _
    | false =>
      simp only [visit, explore, atCursor, bound, Bool.false_eq_true, if_false]
      exact search_siblings m S ih st further _ rest _

/-- From the root the loop returns the tally of the recursive search. -/
theorem search_root :
    m.search S ([SearchState.root], ⟨[], 0⟩) =
      m.explore S m.order.length Binding.empty 0 ⟨[], 0⟩ := by
  rw [search_cons_eq_explore m S m.order.length SearchState.root (Nat.sub_zero _), search_nil]
  rfl

theorem explored_le_search (run : List SearchState × SearchTally) :
    run.2.explored ≤ (m.search S run).explored := by
  fun_induction m.search S run with
  | case1 tally => exact le_refl _
  | case2 st rest tally ih =>
    have counted := m.step_explored S st rest tally
    dsimp only
    omega

/-- The loop takes one turn per state it counts: after that many turns the stack is empty and the
tally is the one the loop returns. -/
theorem iterate_step_search (run : List SearchState × SearchTally) :
    (m.step S)^[(m.search S run).explored - run.2.explored] run = ([], m.search S run) := by
  fun_induction m.search S run with
  | case1 tally => simp
  | case2 st rest tally ih =>
    have counted := m.step_explored S st rest tally
    have later := explored_le_search m S (m.step S (st :: rest, tally))
    have turns : (m.search S (m.step S (st :: rest, tally))).explored - tally.explored =
        (m.search S (m.step S (st :: rest, tally))).explored -
          (m.step S (st :: rest, tally)).2.explored + 1 := by
      omega
    rw [turns, Function.iterate_succ_apply, ih]

/-- A turn keeps every stacked state within the consumption order. -/
theorem step_within {run : List SearchState × SearchTally}
    (within : ∀ st ∈ run.1, st.cursor ≤ m.order.length) :
    ∀ st ∈ (m.step S run).1, st.cursor ≤ m.order.length := by
  obtain ⟨_ | ⟨top, rest⟩, tally⟩ := run
  · simp [step]
  · intro st member
    simp only [step, List.mem_append] at member
    rcases member with pushed | below
    · obtain ⟨inside, next⟩ := mem_visit pushed
      omega
    · exact within st (List.mem_cons_of_mem _ below)

theorem iterate_step_within (n : Nat) {run : List SearchState × SearchTally}
    (within : ∀ st ∈ run.1, st.cursor ≤ m.order.length) :
    ∀ st ∈ ((m.step S)^[n] run).1, st.cursor ≤ m.order.length := by
  induction n with
  | zero => exact within
  | succ n ih =>
    rw [Function.iterate_succ_apply']
    exact step_within m S ih

/-- A free op has at most one extension per candidate and admissible permutation, and a wildcard
one per candidate. -/
theorem length_expand_le (b : Binding) (p : Nat) :
    (m.expand S b p).length ≤ ((m.candidates S b p).map fun s =>
      if isWildcard (m.pattern.opAt p) then 1
      else (m.tables.admissible (m.pattern.opAt p) (S.opAt s)
        (b.aligns (m.pattern.opAt p).inputs (S.opAt s).inputs)).length).sum := by
  simp only [expand, List.length_flatMap]
  apply List.sum_le_sum
  intro s _
  split
  · exact Option.length_toList_le
  · exact List.length_filterMap_le _ _

end Matcher

/-- The search loop terminates: each turn shrinks the stacked depths in the Dershowitz–Manna order,
states stay within the order, a free op has a bounded number of children, and from the root the loop
returns the recursive search's tally after one turn per explored state. -/
theorem search_loop_terminates (m : Matcher) (S : Graph) :
    (∀ st rest tally, Multiset.IsDershowitzMannaLT
        (((m.step S (st :: rest, tally)).1.map m.depth : List Nat) : Multiset Nat)
        ((st :: rest).map m.depth)) ∧
    (∀ st tally, ∀ c ∈ (m.visit S st tally).1, c.cursor = st.cursor + 1) ∧
    (∀ n, ∀ st ∈ ((m.step S)^[n] ([SearchState.root], ⟨[], 0⟩)).1, st.cursor ≤ m.order.length) ∧
    (∀ st tally p, m.order[st.cursor]? = some p → st.binding.isBound p = false →
      (m.visit S st tally).1.length ≤ ((m.candidates S st.binding p).map fun s =>
        if isWildcard (m.pattern.opAt p) then 1
        else (m.tables.admissible (m.pattern.opAt p) (S.opAt s)
          (st.binding.aligns (m.pattern.opAt p).inputs (S.opAt s).inputs)).length).sum) ∧
    m.search S ([SearchState.root], ⟨[], 0⟩) =
      m.explore S m.order.length Binding.empty 0 ⟨[], 0⟩ ∧
    (m.step S)^[(m.explore S m.order.length Binding.empty 0 ⟨[], 0⟩).explored]
      ([SearchState.root], ⟨[], 0⟩) = ([], m.explore S m.order.length Binding.empty 0 ⟨[], 0⟩) := by
  refine ⟨m.step_depths_lt S, fun st tally c pushed => (Matcher.mem_visit pushed).2,
    fun n => m.iterate_step_within S n (by simp [SearchState.root]), ?_, m.search_root S, ?_⟩
  · intro st tally p atCursor free
    simp only [Matcher.visit, atCursor, free, Bool.false_eq_true, if_false, List.length_map]
    exact m.length_expand_le S st.binding p
  · have run := m.iterate_step_search S ([SearchState.root], ⟨[], 0⟩)
    rw [m.search_root S] at run
    exact run

/-- A rectifier over an input, as pattern. -/
def rectifier : Graph :=
  ⟨#[⟨"x", "Placeholder", [], [⟨"x:0", .float, ⟨none⟩⟩], []⟩,
     ⟨"r", "Relu", ["x:0"], [⟨"r:0", .float, ⟨none⟩⟩], []⟩], [0, 1], [1], ⟨[]⟩⟩

/-- Two rectifiers in a row. -/
def rectifierChain : Graph :=
  ⟨#[⟨"a", "Placeholder", [], [⟨"a:0", .float, ⟨none⟩⟩], []⟩,
     ⟨"q", "Relu", ["a:0"], [⟨"q:0", .float, ⟨none⟩⟩], []⟩,
     ⟨"t", "Relu", ["q:0"], [⟨"t:0", .float, ⟨none⟩⟩], []⟩], [0, 1, 2], [2], ⟨[]⟩⟩

def rectifierMatcher : Matcher := ⟨rectifier, Equivalences.defaults, [1, 0]⟩

/-- Both rectifiers of the chain start a branch from the root, and the loop ends after five turns
with both occurrences. -/
theorem rectifierChain_search_ends :
    Matcher.make rectifier Equivalences.defaults = .ok rectifierMatcher ∧
      rectifierMatcher.order[SearchState.root.cursor]? = some 1 ∧
      SearchState.root.binding.isBound 1 = false ∧
      (rectifierMatcher.visit rectifierChain SearchState.root ⟨[], 0⟩).1.length = 2 ∧
      (∀ c ∈ (rectifierMatcher.visit rectifierChain SearchState.root ⟨[], 0⟩).1, c.cursor = 1) ∧
      (rectifierMatcher.step rectifierChain)^[5] ([SearchState.root], ⟨[], 0⟩) =
        ([], rectifierMatcher.explore rectifierChain 2 Binding.empty 0 ⟨[], 0⟩) ∧
      (rectifierMatcher.explore rectifierChain 2 Binding.empty 0 ⟨[], 0⟩).found.length = 2 := by
  obtain ⟨-, pushed, -, -, -, run⟩ := search_loop_terminates rectifierMatcher rectifierChain
  have explored : (rectifierMatcher.explore rectifierChain 2 Binding.empty 0 ⟨[], 0⟩).explored = 5 := by
    decide +kernel
  refine ⟨rfl, by decide, by decide, by decide +kernel, pushed _ _, ?_, by decide +kernel⟩
  rw [← explored]
  exact run

end OpGraph
