import Mathlib.Data.Finset.Dedup
import Orcastork.Library.Components
import Orcastork.Library.Dict

/-!
# Cycle detection

`find_cycles`, the depth-first search for strongly connected components. The search keeps a stack of
the nodes it has met and not yet put into a component; a node whose lowest link is its own index is
the root of one, made of what is above it on the stack.

The nodes whose search is under way are `gray`. What is off the stack is done: what it leads to is
done as well. From the stack one gets down to gray nodes only by lower links, and up to everything
above.
-/

namespace Orcastork

variable {N : Type} [DecidableEq N]

/-! ### The search -/

/-- The successors of a node, in the order of their set: none if the node is not a key. -/
def successors (edges : Dict N (List N)) (node : N) : List N := (edges.get? node).getD []

/-- What the search has recorded; the top of the stack comes first. -/
structure Tarjan (N : Type) where
  indexCounter : ℕ
  indices : Dict N ℕ
  lowlinks : Dict N ℕ
  stack : List N
  onStack : Finset N
  cycles : List (Finset N)

namespace Tarjan

/-- The state before the search. -/
def empty : Tarjan N := ⟨0, .empty, .empty, [], ∅, []⟩

/-- The node gets the next index and is pushed. -/
def discover (s : Tarjan N) (node : N) : Tarjan N where
  indexCounter := s.indexCounter + 1
  indices := s.indices.set node s.indexCounter
  lowlinks := s.lowlinks.set node s.indexCounter
  stack := node :: s.stack
  onStack := insert node s.onStack
  cycles := s.cycles

/-- `lowlinks[node] = min(lowlinks[node], value)`; a missing key is an error. -/
def lower (s : Tarjan N) (node : N) (value : Option ℕ) : Option (Tarjan N) := do
  let low ← s.lowlinks.get? node
  let value ← value
  some { s with lowlinks := s.lowlinks.set node (min low value) }

/-- The members popped until the node itself, and the stack that is left. -/
def popComponent (node : N) : List N → Option (List N × List N)
  | [] => none
  | member :: stack =>
    if member = node then
      some ([member], stack)
    else do
      let (component, stack) ← popComponent node stack
      some (member :: component, stack)

/-- One successor of the node: searched if it is new, linked to if it is on the stack. -/
def visitSuccessor (strongconnect : Tarjan N → N → Option (Tarjan N)) (node : N) (s : Tarjan N)
    (successor : N) : Option (Tarjan N) :=
  if s.indices.get? successor = none then do
    let s ← strongconnect s successor
    s.lower node (s.lowlinks.get? successor)
  else if successor ∈ s.onStack then
    s.lower node (s.indices.get? successor)
  else
    some s

/-- The end of the node's search: a root takes its component off the stack. -/
def finish (edges : Dict N (List N)) (s : Tarjan N) (node : N) : Option (Tarjan N) := do
  let low ← s.lowlinks.get? node
  let index ← s.indices.get? node
  if low = index then do
    let (component, stack) ← popComponent node s.stack
    some { s with
      stack := stack
      onStack := s.onStack \ component.toFinset
      cycles :=
        if 1 < component.length ∨ node ∈ successors edges node then
          s.cycles ++ [component.toFinset]
        else s.cycles }
  else
    some s

/-- The search from a node, down to a depth. -/
def strongconnect (edges : Dict N (List N)) : ℕ → Tarjan N → N → Option (Tarjan N)
  | 0, _, _ => none
  | depth + 1, s, node => do
    let s ← (successors edges node).foldlM
      (visitSuccessor (strongconnect edges depth) node) (s.discover node)
    s.finish edges node

/-- The search from a key that has not been met. -/
def visitKey (edges : Dict N (List N)) (depth : ℕ) (s : Tarjan N) (node : N) : Option (Tarjan N) :=
  if s.indices.get? node = none then strongconnect edges depth s node else some s

end Tarjan

/-- The keys and their successors. -/
def allNodes (edges : Dict N (List N)) : Finset N :=
  (edges.keys ++ edges.keys.flatMap (successors edges)).toFinset

/-- `find_cycles`. The search never gets deeper than there are nodes. -/
def findCycles (edges : Dict N (List N)) : Option (List (Finset N)) := do
  let s ← edges.keys.foldlM (Tarjan.visitKey edges (allNodes edges).card) .empty
  some s.cycles

/-! ### Reading the records -/

/-- A node is among the successors of another. -/
def Edge (edges : Dict N (List N)) (node successor : N) : Prop := successor ∈ successors edges node

omit [DecidableEq N] in
/-- A path along the edges. -/
abbrev Reach (edge : N → N → Prop) : N → N → Prop := Relation.ReflTransGen edge

namespace Tarjan

/-- The node has been met. -/
def Seen (s : Tarjan N) (node : N) : Prop := s.indices.get? node ≠ none

/-- The index of a node that has been met. -/
def index (s : Tarjan N) (node : N) : ℕ := (s.indices.get? node).getD 0

/-- The node is in a component that has been taken off the stack. -/
def Done (s : Tarjan N) (node : N) : Prop := s.Seen node ∧ node ∉ s.stack

/-- What holds all through the search, with the nodes `gray` under way. -/
structure Inv (edge : N → N → Prop) (gray : Set N) (s : Tarjan N) : Prop where
  bounded : ∀ node, s.Seen node → s.index node < s.indexCounter
  sorted : s.stack.Pairwise (fun above below => s.index below < s.index above)
  onStack : ∀ node, node ∈ s.onStack ↔ node ∈ s.stack
  seen : ∀ node ∈ s.stack, s.Seen node
  pushed : ∀ node ∈ gray, node ∈ s.stack
  explored : ∀ node, s.Seen node → node ∉ gray → ∀ successor, edge node successor → s.Seen successor
  closed : ∀ node successor, s.Done node → edge node successor → s.Done successor
  climbs : s.stack.Pairwise (fun above below => Reach edge below above)
  descends : ∀ node ∈ s.stack, ∃ g ∈ gray, s.index g ≤ s.index node ∧ Reach edge node g
  nodup : s.cycles.Nodup
  cycles : ∀ component, component ∈ s.cycles
    ↔ Components.IsComponent edge component ∧ Components.IsCyclic edge component
      ∧ ∀ node ∈ component, s.Done node

/-- The records of the nodes that had been met are kept, and the stack only grew. -/
structure Extends (s t : Tarjan N) : Prop where
  indices : ∀ node, s.Seen node → t.indices.get? node = s.indices.get? node
  lowlinks : ∀ node, s.Seen node → t.lowlinks.get? node = s.lowlinks.get? node
  stack : s.stack <:+ t.stack
  counter : s.indexCounter ≤ t.indexCounter

namespace Extends

variable {s t u : Tarjan N} {node : N}

theorem refl (s : Tarjan N) :
  Extends s s
  := ⟨fun _ _ => rfl, fun _ _ => rfl, List.suffix_rfl, le_refl _⟩

theorem seen (h : Extends s t) (hseen : s.Seen node) :
  t.Seen node
  := by
  rw [Seen, h.indices node hseen]
  exact hseen

theorem index (h : Extends s t) (hseen : s.Seen node) :
  t.index node = s.index node
  := by
  rw [Tarjan.index, Tarjan.index, h.indices node hseen]

theorem trans (h : Extends s t) (h' : Extends t u) :
  Extends s u
  := by
  constructor
  · intro node hseen
    rw [h'.indices node (h.seen hseen), h.indices node hseen]
  · intro node hseen
    rw [h'.lowlinks node (h.seen hseen), h.lowlinks node hseen]
  · exact h.stack.trans h'.stack
  · exact h.counter.trans h'.counter

end Extends

/-! ### Discovering a node -/

section Discover

variable {s : Tarjan N} {node other : N}

theorem seen_discover :
  (s.discover node).Seen other ↔ other = node ∨ s.Seen other
  := by
  rw [Seen, discover, Dict.get?_set]
  by_cases hsame : node = other
  · simp [hsame]
  · have hother : ¬other = node := fun h => hsame h.symm
    simp [hsame, hother, Seen]

theorem index_discover_self :
  (s.discover node).index node = s.indexCounter
  := by
  rw [index, discover, Dict.get?_set_self]
  rfl

theorem index_discover_of_ne (h : other ≠ node) :
  (s.discover node).index other = s.index other
  := by
  rw [index, discover, Dict.get?_set_of_ne _ h.symm]
  rfl

theorem extends_discover (hnew : ¬s.Seen node) :
  Extends s (s.discover node)
  := by
  have hne : ∀ other, s.Seen other → node ≠ other := by
    rintro other hseen rfl
    exact hnew hseen
  constructor
  · intro other hseen
    rw [discover, Dict.get?_set_of_ne _ (hne other hseen)]
  · intro other hseen
    rw [discover, Dict.get?_set_of_ne _ (hne other hseen)]
  · exact List.suffix_cons node s.stack
  · exact Nat.le_succ _

/-- A node that all gray nodes reach becomes gray. -/
theorem Inv.discover {edge : N → N → Prop} {gray : Set N} (hinv : Inv edge gray s)
    (hnew : ¬s.Seen node) (hgray : ∀ g ∈ gray, Reach edge g node) :
  Inv edge (insert node gray) (s.discover node)
  := by
  have hne : ∀ other ∈ s.stack, other ≠ node := by
    rintro other hother rfl
    exact hnew (hinv.seen other hother)
  have hindex : ∀ other ∈ s.stack, (s.discover node).index other = s.index other :=
    fun other hother => index_discover_of_ne (hne other hother)
  have hdone : ∀ other, (s.discover node).Done other ↔ s.Done other := by
    intro other
    rw [Done, Done, seen_discover, Tarjan.discover, List.mem_cons, not_or]
    constructor
    · rintro ⟨hsame | hseen, hother, hoff⟩
      · exact absurd hsame hother
      · exact ⟨hseen, hoff⟩
    · rintro ⟨hseen, hoff⟩
      refine ⟨Or.inr hseen, ?_, hoff⟩
      rintro rfl
      exact hnew hseen
  constructor
  case bounded =>
    intro other hseen
    rw [seen_discover] at hseen
    by_cases hsame : other = node
    · rw [hsame, index_discover_self]
      exact Nat.lt_succ_self _
    · rw [index_discover_of_ne hsame]
      exact Nat.lt_succ_of_lt (hinv.bounded other (hseen.resolve_left hsame))
  case sorted =>
    apply List.pairwise_cons.mpr
    constructor
    · intro below hbelow
      rw [hindex below hbelow, index_discover_self]
      exact hinv.bounded below (hinv.seen below hbelow)
    · apply hinv.sorted.imp_of_mem
      intro above below habove hbelow hlt
      rw [hindex above habove, hindex below hbelow]
      exact hlt
  case onStack =>
    intro other
    rw [Tarjan.discover, Finset.mem_insert, List.mem_cons, hinv.onStack]
  case seen =>
    intro other hother
    rw [seen_discover]
    exact (List.mem_cons.mp hother).imp_right (hinv.seen other)
  case pushed =>
    intro g hg
    apply List.mem_cons.mpr
    exact (Set.mem_insert_iff.mp hg).imp_right (hinv.pushed g)
  case explored =>
    intro other hseen hblack successor hedge
    rw [Set.mem_insert_iff, not_or] at hblack
    rw [seen_discover] at hseen ⊢
    exact Or.inr (hinv.explored other (hseen.resolve_left hblack.1) hblack.2 successor hedge)
  case closed =>
    intro other successor hother hedge
    rw [hdone] at hother ⊢
    exact hinv.closed other successor hother hedge
  case climbs =>
    apply List.pairwise_cons.mpr
    constructor
    · intro below hbelow
      obtain ⟨g, hg, -, hreach⟩ := hinv.descends below hbelow
      exact hreach.trans (hgray g hg)
    · exact hinv.climbs
  case descends =>
    intro other hother
    rcases List.mem_cons.mp hother with rfl | hother
    · exact ⟨other, Set.mem_insert _ _, le_refl _, .refl⟩
    · obtain ⟨g, hg, hle, hreach⟩ := hinv.descends other hother
      refine ⟨g, Set.mem_insert_of_mem _ hg, ?_, hreach⟩
      rw [hindex g (hinv.pushed g hg), hindex other hother]
      exact hle
  case nodup => exact hinv.nodup
  case cycles =>
    intro component
    simp only [hdone]
    exact hinv.cycles component

end Discover

/-! ### The end of a search -/

/-- What holds while the successors of a node are visited: `s` is the state in which the search from
the node began, and `low` its lowest link so far. -/
structure Searching (edge : N → N → Prop) (gray : Set N) (s : Tarjan N) (node : N) (t : Tarjan N)
    (visited : List N) (low : ℕ) : Prop where
  inv : Inv edge (insert node gray) t
  extension : Extends s t
  ownIndex : t.indices.get? node = some s.indexCounter
  stack : ∃ above, t.stack = above ++ node :: s.stack
  met : ∀ successor ∈ visited, t.Seen successor
  ownLow : t.lowlinks.get? node = some low
  bound : low ≤ s.indexCounter
  reached : ∃ target ∈ t.stack, t.index target = low ∧ Reach edge node target
  links : ∀ other ∈ t.stack, other ∉ s.stack → ∀ target ∈ s.stack, edge other target →
    (other = node → target ∈ visited) → low ≤ t.index target

/-- What holds when the search from a node is over. -/
structure Searched (edge : N → N → Prop) (gray : Set N) (s : Tarjan N) (node : N) (t : Tarjan N)
    (low : ℕ) : Prop where
  inv : Inv edge gray t
  extension : Extends s t
  seen : t.Seen node
  ownLow : t.lowlinks.get? node = some low
  off : node ∉ t.stack → s.indexCounter ≤ low
  reached : node ∈ t.stack → ∃ target ∈ t.stack, t.index target = low ∧ Reach edge node target
  links : ∀ other ∈ t.stack, other ∉ s.stack → ∀ target ∈ s.stack, edge other target →
    low ≤ t.index target

/-- What lies above the node is popped with it. -/
theorem popComponent_append {node : N} {above below : List N} (h : node ∉ above) :
  popComponent node (above ++ node :: below) = some (above ++ [node], below)
  := by
  induction above with
  | nil => simp [popComponent]
  | cons member above ih =>
      rw [List.mem_cons, not_or] at h
      have hother : ¬member = node := fun hsame => h.1 hsame.symm
      simp [popComponent, hother, ih h.2]

section Finish

variable {edges : Dict N (List N)} {gray : Set N} {s t : Tarjan N} {node : N} {above : List N}
variable {low : ℕ}

/-- A stack without repetitions. -/
theorem Inv.nodup_stack {edge : N → N → Prop} (hinv : Inv edge gray s) :
  s.stack.Nodup
  := by
  apply hinv.sorted.imp
  rintro above below hlt rfl
  exact lt_irrefl _ hlt

/-- What was on the stack before has a lower index than the node. -/
theorem Searching.index_lt {visited : List N} (hinv : Inv (Edge edges) gray s)
    (h : Searching (Edge edges) gray s node t visited low) {other : N} (hother : other ∈ s.stack) :
  t.index other < s.indexCounter
  := by
  have hseen := hinv.seen other hother
  rw [h.extension.index hseen]
  exact hinv.bounded other hseen

theorem Searching.index_self {visited : List N}
    (h : Searching (Edge edges) gray s node t visited low) :
  t.index node = s.indexCounter
  := by
  rw [index, h.ownIndex]
  rfl

/-- The node and what is above it are reachable from each other. -/
theorem Searching.mutual_of_mem {visited : List N} (hgray : ∀ g ∈ gray, Reach (Edge edges) g node)
    (h : Searching (Edge edges) gray s node t visited low)
    (hstack : t.stack = above ++ node :: s.stack) {other : N} (hother : other ∈ above ++ [node]) :
  Components.Mutual (Edge edges) node other
  := by
  have hmem : other ∈ t.stack := by
    rw [hstack, List.append_cons]
    exact List.mem_append_left _ hother
  constructor
  · rcases List.mem_append.mp hother with hother | hother
    · have hclimbs := h.inv.climbs
      rw [hstack, List.pairwise_append] at hclimbs
      exact hclimbs.2.2 other hother node List.mem_cons_self
    · rw [List.mem_singleton.mp hother]
  · obtain ⟨g, hg, -, hreach⟩ := h.inv.descends other hmem
    rcases Set.mem_insert_iff.mp hg with rfl | hg
    · exact hreach
    · exact hreach.trans (hgray g hg)

/-- Where the lowest link is the node itself, all edges from what is above it stay there or lead to
what is done. -/
theorem Searching.closed_root (hinv : Inv (Edge edges) gray s)
    (h : Searching (Edge edges) gray s node t (successors edges node) s.indexCounter)
    (hstack : t.stack = above ++ node :: s.stack) {other successor : N}
    (hother : other ∈ above ++ [node]) (hedge : Edge edges other successor) :
  successor ∈ above ++ [node] ∨ t.Done successor
  := by
  rw [List.append_cons] at hstack
  have hmem : other ∈ t.stack := by
    rw [hstack]
    exact List.mem_append_left _ hother
  have hnodup := h.inv.nodup_stack
  rw [hstack] at hnodup
  have hoff : other ∉ s.stack := (List.nodup_append'.mp hnodup).2.2 hother
  have hseen : t.Seen successor := by
    by_cases hsame : other = node
    · rw [hsame] at hedge
      exact h.met successor hedge
    · apply h.inv.explored other (h.inv.seen other hmem) _ successor hedge
      intro hg
      rcases Set.mem_insert_iff.mp hg with rfl | hg
      · exact hsame rfl
      · exact hoff (hinv.pushed other hg)
  by_cases hon : successor ∈ t.stack
  · rw [hstack] at hon
    apply (List.mem_append.mp hon).imp_right
    intro hbelow
    have hle := h.links other hmem hoff successor hbelow hedge
      (fun hsame => by rw [hsame] at hedge; exact hedge)
    exact absurd (h.index_lt hinv hbelow) (not_lt.mpr hle)
  · exact Or.inr ⟨hseen, hon⟩

/-- Where the lowest link is the node itself, the node and what is above it are a component. -/
theorem Searching.isComponent (hinv : Inv (Edge edges) gray s)
    (hgray : ∀ g ∈ gray, Reach (Edge edges) g node)
    (h : Searching (Edge edges) gray s node t (successors edges node) s.indexCounter)
    (hstack : t.stack = above ++ node :: s.stack) :
  Components.IsComponent (Edge edges) (above ++ [node]).toFinset
  := by
  have hnode : node ∈ above ++ [node] := List.mem_append_right _ List.mem_cons_self
  refine ⟨node, List.mem_toFinset.mpr hnode, ?_⟩
  intro other
  rw [List.mem_toFinset]
  constructor
  · apply h.mutual_of_mem hgray hstack
  · rintro ⟨hto, hback⟩
    have hclosed : ∀ a b, (a ∈ above ++ [node] ∨ t.Done a) → Edge edges a b →
        (b ∈ above ++ [node] ∨ t.Done b) := by
      rintro a b (ha | ha) hedge
      · exact h.closed_root hinv hstack ha hedge
      · exact Or.inr (h.inv.closed a b ha hedge)
    apply (Components.mem_of_reach hclosed (Or.inl hnode) hto).resolve_right
    intro hdone
    -- What is done does not lead back to the stack.
    have hoff := Components.mem_of_reach h.inv.closed hdone hback
    apply hoff.2
    rw [hstack]
    exact List.mem_append_right _ List.mem_cons_self

/-- A component with another node, or with an edge from the root to itself, is cyclic. -/
theorem isCyclic_iff (hnodup : (above ++ [node]).Nodup) :
  Components.IsCyclic (Edge edges) (above ++ [node]).toFinset
    ↔ 1 < (above ++ [node]).length ∨ node ∈ successors edges node
  := by
  rw [Components.IsCyclic, List.toFinset_card_of_nodup hnodup]
  constructor
  · rintro (hcard | ⟨other, hother, hloop⟩)
    · exact Or.inl hcard
    · cases above with
      | nil =>
          rw [List.nil_append, List.mem_toFinset, List.mem_singleton] at hother
          rw [hother] at hloop
          exact Or.inr hloop
      | cons first above =>
          left
          simp
  · rintro (hcard | hloop)
    · exact Or.inl hcard
    · right
      exact ⟨node, List.mem_toFinset.mpr (List.mem_append_right _ List.mem_cons_self), hloop⟩

/-- The state after a component has been taken off the stack. -/
def popped (edges : Dict N (List N)) (s : Tarjan N) (node : N) (component below : List N) :
    Tarjan N :=
  { s with
    stack := below
    onStack := s.onStack \ component.toFinset
    cycles :=
      if 1 < component.length ∨ node ∈ successors edges node then
        s.cycles ++ [component.toFinset]
      else s.cycles }

/-- The stack without its component keeps what holds all through the search. -/
theorem Searching.inv_popped (hinv : Inv (Edge edges) gray s)
    (hgray : ∀ g ∈ gray, Reach (Edge edges) g node)
    (h : Searching (Edge edges) gray s node t (successors edges node) s.indexCounter)
    (hstack : t.stack = above ++ node :: s.stack) :
  Inv (Edge edges) gray (t.popped edges node (above ++ [node]) s.stack)
  := by
  have hcomponent := h.isComponent hinv hgray hstack
  have hclosed : ∀ other ∈ above ++ [node], ∀ successor, Edge edges other successor →
      successor ∈ above ++ [node] ∨ t.Done successor :=
    fun other hother successor => h.closed_root hinv hstack hother
  have hbelow : s.stack <:+ t.stack := h.extension.stack
  have hnodup := h.inv.nodup_stack
  rw [List.append_cons] at hstack
  rw [hstack] at hnodup
  obtain ⟨hnodupComponent, -, hdisjoint⟩ := List.nodup_append'.mp hnodup
  have hdone : ∀ other, (t.popped edges node (above ++ [node]) s.stack).Done other
      ↔ other ∈ above ++ [node] ∨ t.Done other := by
    intro other
    have hmem : other ∈ t.stack ↔ other ∈ above ++ [node] ∨ other ∈ s.stack := by
      rw [hstack, List.mem_append]
    constructor
    · rintro ⟨hseen, hoff⟩
      by_cases hother : other ∈ above ++ [node]
      · exact Or.inl hother
      · exact Or.inr ⟨hseen, fun hon => (hmem.mp hon).elim hother hoff⟩
    · rintro (hother | ⟨hseen, hoff⟩)
      · exact ⟨h.inv.seen other (hmem.mpr (Or.inl hother)), hdisjoint hother⟩
      · exact ⟨hseen, fun hon => hoff (hmem.mpr (Or.inr hon))⟩
  have hfresh : (above ++ [node]).toFinset ∉ t.cycles := by
    intro hmem
    have hnode : node ∈ above ++ [node] := List.mem_append_right _ List.mem_cons_self
    have hoff := ((h.inv.cycles _).mp hmem).2.2 node (List.mem_toFinset.mpr hnode)
    apply hoff.2
    rw [hstack]
    exact List.mem_append_left _ hnode
  constructor
  case bounded => exact h.inv.bounded
  case sorted => exact h.inv.sorted.sublist hbelow.sublist
  case onStack =>
    intro other
    rw [popped, Finset.mem_sdiff, h.inv.onStack, List.mem_toFinset, hstack, List.mem_append]
    constructor
    · rintro ⟨hother, hnot⟩
      exact hother.resolve_left hnot
    · exact fun hother => ⟨Or.inr hother, fun hmem => hdisjoint hmem hother⟩
  case seen => exact fun other hother => h.inv.seen other (hbelow.subset hother)
  case pushed => exact hinv.pushed
  case explored =>
    intro other hseen hblack successor hedge
    by_cases hsame : other = node
    · rw [hsame] at hedge
      exact h.met successor hedge
    · apply h.inv.explored other hseen _ successor hedge
      rw [Set.mem_insert_iff, not_or]
      exact ⟨hsame, hblack⟩
  case closed =>
    intro other successor hother hedge
    rw [hdone] at hother ⊢
    rcases hother with hother | hother
    · exact hclosed other hother successor hedge
    · exact Or.inr (h.inv.closed other successor hother hedge)
  case climbs => exact h.inv.climbs.sublist hbelow.sublist
  case descends =>
    intro other hother
    obtain ⟨g, hg, hle, hreach⟩ := h.inv.descends other (hbelow.subset hother)
    refine ⟨g, ?_, hle, hreach⟩
    apply (Set.mem_insert_iff.mp hg).resolve_left
    rintro rfl
    rw [h.index_self] at hle
    exact absurd (h.index_lt hinv hother) (not_lt.mpr hle)
  case nodup =>
    rw [popped]
    split
    · exact List.nodup_append'.mpr ⟨h.inv.nodup, List.nodup_singleton _,
        List.disjoint_singleton.mpr hfresh⟩
    · exact h.inv.nodup
  case cycles =>
    intro component
    simp only [hdone]
    have hcycle : Components.IsCyclic (Edge edges) (above ++ [node]).toFinset
        ↔ 1 < (above ++ [node]).length ∨ node ∈ successors edges node :=
      isCyclic_iff hnodupComponent
    have hmem : component ∈ (t.popped edges node (above ++ [node]) s.stack).cycles
        ↔ component ∈ t.cycles ∨ component = (above ++ [node]).toFinset
          ∧ Components.IsCyclic (Edge edges) (above ++ [node]).toFinset := by
      rw [popped, hcycle]
      split
      · rename_i hcyclic
        rw [List.mem_append, List.mem_singleton, and_iff_left hcyclic]
      · rename_i hacyclic
        rw [or_iff_left (fun hnew => hacyclic hnew.2)]
    rw [hmem, h.inv.cycles]
    constructor
    · rintro (⟨hold, hcyclic, hall⟩ | ⟨rfl, hcyclic⟩)
      · exact ⟨hold, hcyclic, fun other hother => Or.inr (hall other hother)⟩
      · exact ⟨hcomponent, hcyclic, fun other hother => Or.inl (List.mem_toFinset.mp hother)⟩
    · rintro ⟨hnew, hcyclic, hall⟩
      by_cases hmeets : ∃ other ∈ component, other ∈ above ++ [node]
      · obtain ⟨other, hother, hon⟩ := hmeets
        have hsame := hnew.eq_of_mem hcomponent hother (List.mem_toFinset.mpr hon)
        rw [hsame] at hcyclic
        exact Or.inr ⟨hsame, hcyclic⟩
      · left
        refine ⟨hnew, hcyclic, fun other hother => ?_⟩
        apply (hall other hother).resolve_left
        exact fun hon => hmeets ⟨other, hother, hon⟩

/-- The search from a node ends: with its component taken off the stack, or with a lower link to a
node on it. -/
theorem Searching.finish (hinv : Inv (Edge edges) gray s) (hnew : ¬s.Seen node)
    (hgray : ∀ g ∈ gray, Reach (Edge edges) g node)
    (h : Searching (Edge edges) gray s node t (successors edges node) low) :
  ∃ t', t.finish edges node = some t' ∧ Searched (Edge edges) gray s node t' low
  := by
  obtain ⟨above, hstack⟩ := h.stack
  have hnode : node ∉ s.stack := fun hon => hnew (hinv.seen node hon)
  by_cases hroot : low = s.indexCounter
  · rw [hroot] at h ⊢
    use t.popped edges node (above ++ [node]) s.stack
    constructor
    · have hnodup := h.inv.nodup_stack
      rw [hstack] at hnodup
      have habove : node ∉ above := by
        intro hmem
        exact (List.nodup_append'.mp hnodup).2.2 hmem List.mem_cons_self
      simp [Tarjan.finish, h.ownLow, h.ownIndex, hstack, popComponent_append habove, popped]
    · constructor
      case inv => exact h.inv_popped hinv hgray hstack
      case extension =>
        exact ⟨h.extension.indices, h.extension.lowlinks, List.suffix_rfl, h.extension.counter⟩
      case seen =>
        apply h.inv.seen
        rw [hstack]
        exact List.mem_append_right _ List.mem_cons_self
      case ownLow => exact h.ownLow
      case off => exact fun _ => le_refl _
      case reached => exact fun hon => absurd hon hnode
      case links => exact fun other hon hoff => absurd hon hoff
  · have hlower : low < s.indexCounter := lt_of_le_of_ne h.bound hroot
    have hon : node ∈ t.stack := by
      rw [hstack]
      exact List.mem_append_right _ List.mem_cons_self
    use t
    constructor
    · simp [Tarjan.finish, h.ownLow, h.ownIndex, hroot]
    · constructor
      case inv =>
        -- What the node stood for stands for the node its lowest link leads to.
        obtain ⟨target, htarget, hindex, hreach⟩ := h.reached
        obtain ⟨g', hg', hle', hreach'⟩ := h.inv.descends target htarget
        have hstill : g' ∈ gray := by
          apply (Set.mem_insert_iff.mp hg').resolve_left
          rintro rfl
          rw [h.index_self, hindex] at hle'
          exact absurd hlower (not_lt.mpr hle')
        constructor
        case bounded => exact h.inv.bounded
        case sorted => exact h.inv.sorted
        case onStack => exact h.inv.onStack
        case seen => exact h.inv.seen
        case pushed => exact fun g hg => h.inv.pushed g (Set.mem_insert_of_mem _ hg)
        case explored =>
          intro other hseen hblack successor hedge
          by_cases hsame : other = node
          · rw [hsame] at hedge
            exact h.met successor hedge
          · apply h.inv.explored other hseen _ successor hedge
            rw [Set.mem_insert_iff, not_or]
            exact ⟨hsame, hblack⟩
        case closed => exact h.inv.closed
        case climbs => exact h.inv.climbs
        case descends =>
          intro other hother
          obtain ⟨g, hg, hle, hto⟩ := h.inv.descends other hother
          rcases Set.mem_insert_iff.mp hg with rfl | hg
          · refine ⟨g', hstill, ?_, (hto.trans hreach).trans hreach'⟩
            rw [h.index_self] at hle
            omega
          · exact ⟨g, hg, hle, hto⟩
        case nodup => exact h.inv.nodup
        case cycles => exact h.inv.cycles
      case extension => exact h.extension
      case seen => exact h.inv.seen node hon
      case ownLow => exact h.ownLow
      case off => exact fun hoff => absurd hon hoff
      case reached => exact fun _ => h.reached
      case links =>
        intro other hother hoff target htarget hedge
        apply h.links other hother hoff target htarget hedge
        rintro rfl
        exact hedge

end Finish

/-! ### Visiting the successors -/

section Visit

variable {edges : Dict N (List N)} {gray : Set N} {s t t' : Tarjan N} {node successor : N}
variable {visited : List N} {low : ℕ}

/-- What holds all through the search does not speak of the lowest links. -/
theorem Inv.relinked {edge : N → N → Prop} (h : Inv edge gray s) (lowlinks : Dict N ℕ) :
  Inv edge gray { s with lowlinks := lowlinks }
  := ⟨h.bounded, h.sorted, h.onStack, h.seen, h.pushed, h.explored, h.closed, h.climbs, h.descends,
    h.nodup, h.cycles⟩

/-- The search from a node starts with its own index as its lowest link. -/
theorem Searching.start (hinv : Inv (Edge edges) gray s) (hnew : ¬s.Seen node)
    (hgray : ∀ g ∈ gray, Reach (Edge edges) g node) :
  Searching (Edge edges) gray s node (s.discover node) [] s.indexCounter
  := by
  constructor
  case inv => exact hinv.discover hnew hgray
  case extension => exact extends_discover hnew
  case ownIndex => exact Dict.get?_set_self _ _ _
  case stack => exact ⟨[], rfl⟩
  case met => exact fun successor hsuccessor => absurd hsuccessor List.not_mem_nil
  case ownLow => exact Dict.get?_set_self _ _ _
  case bound => exact le_refl _
  case reached => exact ⟨node, List.mem_cons_self, index_discover_self, .refl⟩
  case links =>
    intro other hother hoff target _ _ hvisited
    have hsame := (List.mem_cons.mp hother).resolve_right hoff
    exact absurd (hvisited hsame) List.not_mem_nil

/-- The node's lowest link is lowered for a successor that has been met. -/
theorem Searching.lowered (hnew : ¬s.Seen node)
    (h : Searching (Edge edges) gray s node t visited low)
    (hinv : Inv (Edge edges) (insert node gray) t') (hextends : Extends t t') (value : ℕ)
    (hmet : t'.Seen successor)
    (hreached : value < low →
      ∃ target ∈ t'.stack, t'.index target = value ∧ Reach (Edge edges) node target)
    (hlinks : ∀ other ∈ t'.stack, other ∉ t.stack → ∀ target ∈ s.stack, Edge edges other target →
      value ≤ t'.index target)
    (hsuccessor : successor ∈ s.stack → value ≤ t'.index successor) :
  ∃ t'', t'.lower node (some value) = some t''
    ∧ Searching (Edge edges) gray s node t'' (visited ++ [successor]) (min low value)
  := by
  have hseen : t.Seen node := by
    rw [Seen, h.ownIndex]
    exact Option.some_ne_none _
  have hlow : t'.lowlinks.get? node = some low := by
    rw [hextends.lowlinks node hseen, h.ownLow]
  have hindex : ∀ other ∈ t.stack, t'.index other = t.index other :=
    fun other hother => hextends.index (h.inv.seen other hother)
  use { t' with lowlinks := t'.lowlinks.set node (min low value) }
  constructor
  · simp [lower, hlow]
  constructor
  case inv => exact hinv.relinked _
  case extension =>
    have hall := h.extension.trans hextends
    refine ⟨hall.indices, ?_, hall.stack, hall.counter⟩
    intro other hother
    have hne : node ≠ other := by
      rintro rfl
      exact hnew hother
    rw [Dict.get?_set_of_ne _ hne, hall.lowlinks other hother]
  case ownIndex => rw [hextends.indices node hseen, h.ownIndex]
  case stack =>
    obtain ⟨above, habove⟩ := h.stack
    obtain ⟨new, hstack⟩ := hextends.stack
    use new ++ above
    rw [← hstack, habove, List.append_assoc]
  case met =>
    intro other hother
    rcases List.mem_append.mp hother with hother | hother
    · exact hextends.seen (h.met other hother)
    · rw [List.mem_singleton.mp hother]
      exact hmet
  case ownLow => exact Dict.get?_set_self _ _ _
  case bound => exact (min_le_left _ _).trans h.bound
  case reached =>
    by_cases hlt : value < low
    · rw [min_eq_right hlt.le]
      exact hreached hlt
    · obtain ⟨target, htarget, hsame, hreach⟩ := h.reached
      rw [min_eq_left (not_lt.mp hlt)]
      refine ⟨target, hextends.stack.subset htarget, ?_, hreach⟩
      rw [← hsame]
      exact hindex target htarget
  case links =>
    intro other hother hoff target htarget hedge hvisited
    by_cases hon : other ∈ t.stack
    · by_cases hlast : target = successor
      · rw [hlast] at htarget ⊢
        exact (min_le_right _ _).trans (hsuccessor htarget)
      · apply (min_le_left _ _).trans
        have hle := h.links other hon hoff target htarget hedge (fun hsame => by
          apply (List.mem_append.mp (hvisited hsame)).resolve_right
          exact fun hmem => hlast (List.mem_singleton.mp hmem))
        rw [← hindex target (h.extension.stack.subset htarget)] at hle
        exact hle
    · exact (min_le_right _ _).trans (hlinks other hother hon target htarget hedge)

/-- The nodes that have not been met. -/
def unseen (nodes : Finset N) (s : Tarjan N) : Finset N :=
  nodes.filter (fun node => s.indices.get? node = none)

theorem mem_unseen {nodes : Finset N} {other : N} :
  other ∈ unseen nodes s ↔ other ∈ nodes ∧ ¬s.Seen other
  := by
  rw [unseen, Finset.mem_filter, Seen, not_not]

theorem Extends.unseen_subset {nodes : Finset N} (h : Extends s t) :
  unseen nodes t ⊆ unseen nodes s
  := by
  intro other hother
  rw [mem_unseen] at hother ⊢
  exact ⟨hother.1, fun hseen => hother.2 (h.seen hseen)⟩

/-- The search from a node meets its end if it may go as deep as there are nodes not met. -/
def Connects (edges : Dict N (List N)) (nodes : Finset N) (depth : ℕ) : Prop :=
  ∀ (gray : Set N) (s : Tarjan N) (node : N), Inv (Edge edges) gray s → ¬s.Seen node →
    node ∈ nodes → (∀ g ∈ gray, Reach (Edge edges) g node) → (unseen nodes s).card ≤ depth →
    ∃ t low, strongconnect edges depth s node = some t
      ∧ Searched (Edge edges) gray s node t low

/-- The node itself has been met since. -/
theorem Searching.card_unseen_lt {nodes : Finset N} (hnew : ¬s.Seen node) (hnode : node ∈ nodes)
    (h : Searching (Edge edges) gray s node t visited low) :
  (unseen nodes t).card < (unseen nodes s).card
  := by
  apply Finset.card_lt_card
  refine ⟨h.extension.unseen_subset, fun hsub => ?_⟩
  have hmem := mem_unseen.mp (hsub (mem_unseen.mpr ⟨hnode, hnew⟩))
  apply hmem.2
  rw [Seen, h.ownIndex]
  exact Option.some_ne_none _

/-- The visit of a successor. -/
theorem Searching.visit {nodes : Finset N} {depth : ℕ} (hconnects : Connects edges nodes depth)
    (hnew : ¬s.Seen node) (hgray : ∀ g ∈ gray, Reach (Edge edges) g node)
    (hdepth : (unseen nodes t).card ≤ depth)
    (h : Searching (Edge edges) gray s node t visited low)
    (hedge : Edge edges node successor) (hnode : successor ∈ nodes) :
  ∃ t' low', visitSuccessor (strongconnect edges depth) node t successor = some t'
    ∧ Searching (Edge edges) gray s node t' (visited ++ [successor]) low'
  := by
  by_cases hmet : t.indices.get? successor = none
  · -- The successor is searched, and its lowest link is a link of the node's.
    have hfresh : ¬t.Seen successor := not_not.mpr hmet
    have hreach : ∀ g ∈ insert node gray, Reach (Edge edges) g successor := by
      intro g hg
      rcases Set.mem_insert_iff.mp hg with rfl | hg
      · exact .single hedge
      · exact (hgray g hg).tail hedge
    obtain ⟨t', value, hsearch, h'⟩ :=
      hconnects (insert node gray) t successor h.inv hfresh hnode hreach hdepth
    have hcounter := h.extension.counter
    obtain ⟨t'', hlower, hnext⟩ := h.lowered hnew h'.inv h'.extension value h'.seen
      (by
        intro hlt
        have hon : successor ∈ t'.stack := by
          by_contra hoff
          have hle := h'.off hoff
          have hbound := h.bound
          omega
        obtain ⟨target, htarget, hindex, hto⟩ := h'.reached hon
        exact ⟨target, htarget, hindex, .head hedge hto⟩)
      (fun other hother hoff target htarget =>
        h'.links other hother hoff target (h.extension.stack.subset htarget))
      (fun hon => absurd (h.inv.seen successor (h.extension.stack.subset hon)) hfresh)
    use t'', min low value
    constructor
    · simp [visitSuccessor, hmet, hsearch, h'.ownLow, hlower]
    · exact hnext
  · by_cases hon : successor ∈ t.stack
    · obtain ⟨t'', hlower, hnext⟩ := h.lowered hnew h.inv (Extends.refl t)
        (t.index successor) hmet
        (fun _ => ⟨successor, hon, rfl, .single hedge⟩)
        (fun other hother hoff => absurd hother hoff)
        (fun _ => le_refl _)
      use t'', min low (t.index successor)
      constructor
      · obtain ⟨value, hvalue⟩ := Option.ne_none_iff_exists'.mp hmet
        rw [index, hvalue, Option.getD_some] at hlower
        simp [visitSuccessor, hvalue, (h.inv.onStack successor).mpr hon, hlower]
      · exact hnext
    · use t, low
      constructor
      · have hoff : successor ∉ t.onStack := fun hmem => hon ((h.inv.onStack successor).mp hmem)
        simp [visitSuccessor, hmet, hoff]
      · refine { h with met := ?_, links := ?_ }
        · intro other hother
          rcases List.mem_append.mp hother with hother | hother
          · exact h.met other hother
          · rw [List.mem_singleton.mp hother]
            exact hmet
        · intro other hother hoff target htarget hedge' hvisited
          apply h.links other hother hoff target htarget hedge'
          intro hsame
          apply (List.mem_append.mp (hvisited hsame)).resolve_right
          intro hlast
          rw [List.mem_singleton.mp hlast] at htarget
          exact hon (h.extension.stack.subset htarget)

/-- The visits of all successors, one after another. -/
theorem Searching.visits {nodes : Finset N} {depth : ℕ} (hconnects : Connects edges nodes depth)
    (hnodes : ∀ a b, Edge edges a b → b ∈ nodes) (hnew : ¬s.Seen node) (hnode : node ∈ nodes)
    (hgray : ∀ g ∈ gray, Reach (Edge edges) g node) (hdepth : (unseen nodes s).card ≤ depth + 1)
    {rest : List N} (hrest : ∀ successor ∈ rest, Edge edges node successor)
    (h : Searching (Edge edges) gray s node t visited low) :
  ∃ t' low', rest.foldlM (visitSuccessor (strongconnect edges depth) node) t = some t'
    ∧ Searching (Edge edges) gray s node t' (visited ++ rest) low'
  := by
  induction rest generalizing t visited low with
  | nil =>
      use t, low, rfl
      rw [List.append_nil]
      exact h
  | cons successor rest ih =>
      have hedge := hrest successor List.mem_cons_self
      have hlt := h.card_unseen_lt hnew hnode
      obtain ⟨t₁, low₁, hvisit, h₁⟩ :=
        h.visit hconnects hnew hgray (by omega) hedge (hnodes node successor hedge)
      obtain ⟨t', low', hvisits, h'⟩ :=
        ih (fun other hother => hrest other (List.mem_cons_of_mem _ hother)) h₁
      use t', low'
      constructor
      · rw [List.foldlM_cons, hvisit]
        exact hvisits
      · rw [List.append_assoc] at h'
        exact h'

end Visit

/-- The search from a node, by induction on how deep it may go. -/
theorem connects {edges : Dict N (List N)} {nodes : Finset N}
    (hnodes : ∀ a b, Edge edges a b → b ∈ nodes) (depth : ℕ) :
  Connects edges nodes depth
  := by
  induction depth with
  | zero =>
      intro gray s node _ hnew hnode _ hdepth
      have hmem : node ∈ unseen nodes s := mem_unseen.mpr ⟨hnode, hnew⟩
      rw [Nat.le_zero, Finset.card_eq_zero] at hdepth
      rw [hdepth] at hmem
      exact absurd hmem (Finset.notMem_empty node)
  | succ depth ih =>
      intro gray s node hinv hnew hnode hgray hdepth
      obtain ⟨t, low, hvisits, h⟩ := (Searching.start hinv hnew hgray).visits ih hnodes hnew hnode
        hgray hdepth (fun successor hsuccessor => hsuccessor)
      rw [List.nil_append] at h
      obtain ⟨t', hfinish, h'⟩ := h.finish hinv hnew hgray
      use t', low
      constructor
      · rw [strongconnect, hvisits]
        exact hfinish
      · exact h'

/-! ### The search from the keys -/

/-- The state before the search, with nothing met. -/
theorem inv_empty (edge : N → N → Prop) :
  Inv edge ∅ (empty : Tarjan N)
  := by
  have hunseen : ∀ node, ¬(empty : Tarjan N).Seen node := by
    intro node hseen
    exact hseen rfl
  constructor
  case bounded => exact fun node hseen => absurd hseen (hunseen node)
  case sorted => exact List.Pairwise.nil
  case onStack => exact fun node => iff_of_false (Finset.notMem_empty node) List.not_mem_nil
  case seen => exact fun node hnode => absurd hnode List.not_mem_nil
  case pushed => exact fun node hnode => absurd hnode (Set.notMem_empty node)
  case explored => exact fun node hseen => absurd hseen (hunseen node)
  case closed => exact fun node _ hdone => absurd hdone.1 (hunseen node)
  case climbs => exact List.Pairwise.nil
  case descends => exact fun node hnode => absurd hnode List.not_mem_nil
  case nodup => exact List.nodup_nil
  case cycles =>
    intro component
    apply iff_of_false List.not_mem_nil
    rintro ⟨⟨node, hnode, -⟩, -, hdone⟩
    exact hunseen node (hdone node hnode).1

/-- With no node under way nothing is on the stack. -/
theorem Inv.stack_eq_nil {edge : N → N → Prop} {s : Tarjan N} (h : Inv edge ∅ s) :
  s.stack = []
  := by
  apply List.eq_nil_iff_forall_not_mem.mpr
  intro node hnode
  obtain ⟨g, hg, -⟩ := h.descends node hnode
  exact Set.notMem_empty g hg

/-- The searches from all keys, one after another. -/
theorem visits_keys {edges : Dict N (List N)} {nodes : Finset N}
    (hnodes : ∀ a b, Edge edges a b → b ∈ nodes) {rest : List N}
    (hrest : ∀ node ∈ rest, node ∈ nodes) {s : Tarjan N} (h : Inv (Edge edges) ∅ s) :
  ∃ t, rest.foldlM (visitKey edges nodes.card) s = some t ∧ Inv (Edge edges) ∅ t
    ∧ (∀ node, s.Seen node → t.Seen node) ∧ ∀ node ∈ rest, t.Seen node
  := by
  induction rest generalizing s with
  | nil => exact ⟨s, rfl, h, fun _ hseen => hseen, fun _ hnode => absurd hnode List.not_mem_nil⟩
  | cons node rest ih =>
      have hvisit : ∃ t, visitKey edges nodes.card s node = some t ∧ Inv (Edge edges) ∅ t
          ∧ (∀ other, s.Seen other → t.Seen other) ∧ t.Seen node := by
        by_cases hmet : s.indices.get? node = none
        · obtain ⟨t, low, hsearch, h'⟩ := connects hnodes nodes.card ∅ s node h
            (not_not.mpr hmet) (hrest node List.mem_cons_self)
            (fun g hg => absurd hg (Set.notMem_empty g)) (Finset.card_filter_le _ _)
          use t
          rw [visitKey, if_pos hmet]
          exact ⟨hsearch, h'.inv, fun other => h'.extension.seen, h'.seen⟩
        · use s
          rw [visitKey, if_neg hmet]
          exact ⟨rfl, h, fun _ hseen => hseen, hmet⟩
      obtain ⟨t₁, hvisit, h₁, hkeeps₁, hnode⟩ := hvisit
      obtain ⟨t, hvisits, h', hkeeps, hall⟩ :=
        ih (fun other hother => hrest other (List.mem_cons_of_mem _ hother)) h₁
      use t
      rw [List.foldlM_cons, hvisit]
      refine ⟨hvisits, h', fun other hother => hkeeps other (hkeeps₁ other hother), ?_⟩
      intro other hother
      rcases List.mem_cons.mp hother with rfl | hother
      · exact hkeeps other hnode
      · exact hall other hother

end Tarjan

/-! ### The components found -/

/-- A node with a successor is a key. -/
theorem mem_keys_of_edge {edges : Dict N (List N)} {node successor : N}
    (h : Edge edges node successor) :
  node ∈ edges.keys
  := by
  rw [← Dict.get?_isSome_iff]
  rw [Edge, successors] at h
  cases hget : edges.get? node with
  | none =>
      rw [hget] at h
      exact absurd h List.not_mem_nil
  | some _ => rfl

theorem mem_allNodes_of_edge {edges : Dict N (List N)} {node successor : N}
    (h : Edge edges node successor) :
  successor ∈ allNodes edges
  := by
  rw [allNodes, List.mem_toFinset, List.mem_append, List.mem_flatMap]
  exact Or.inr ⟨node, mem_keys_of_edge h, h⟩

/-- `find_cycles` returns each strongly connected component that has more than one node or an edge
from a node to itself, once, and nothing else. -/
theorem findCycles_exact (edges : Dict N (List N)) :
  ∃ cycles, findCycles edges = some cycles ∧ cycles.Nodup
    ∧ ∀ component, component ∈ cycles
      ↔ Components.IsComponent (Edge edges) component
        ∧ Components.IsCyclic (Edge edges) component
  := by
  have hkeys : ∀ node ∈ edges.keys, node ∈ allNodes edges := by
    intro node hnode
    rw [allNodes, List.mem_toFinset]
    exact List.mem_append_left _ hnode
  obtain ⟨t, hvisits, hinv, -, hall⟩ :=
    Tarjan.visits_keys (fun _ _ => mem_allNodes_of_edge) hkeys (Tarjan.inv_empty (Edge edges))
  use t.cycles
  refine ⟨by rw [findCycles, hvisits]; rfl, hinv.nodup, fun component => ?_⟩
  rw [hinv.cycles]
  constructor
  · exact fun h => ⟨h.1, h.2.1⟩
  · rintro ⟨hcomponent, hcyclic⟩
    refine ⟨hcomponent, hcyclic, fun node hnode => ?_⟩
    -- A node of a cyclic component has a successor.
    obtain ⟨successor, hedge, -⟩ :=
      Relation.TransGen.head'_iff.mp (hcomponent.transGen hcyclic hnode)
    refine ⟨hall node (mem_keys_of_edge hedge), ?_⟩
    rw [hinv.stack_eq_nil]
    exact List.not_mem_nil

end Orcastork
