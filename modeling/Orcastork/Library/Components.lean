import Mathlib.Data.Finset.Card
import Mathlib.Data.List.Chain
import Mathlib.Logic.Relation
import Mathlib.Tactic.Common

/-!
# Components and cycles

Strongly connected components and directed cycles of a relation `edge` on a type. A component is the
set of all that reaches one of its elements and is reached from it; it is cyclic if it has more than
one element or an element with an edge to itself. Every element of a cyclic component lies on a
cycle, and a cycle lies within one component.
-/

universe u

namespace Components

open Relation

variable {α : Type u} (edge : α → α → Prop)

/-- Each of two elements can be reached from the other. -/
def Mutual (a b : α) : Prop := ReflTransGen edge a b ∧ ReflTransGen edge b a

/-- A finite set is a strongly connected component. -/
def IsComponent (component : Finset α) : Prop :=
  ∃ a ∈ component, ∀ b, b ∈ component ↔ Mutual edge a b

/-- A component has more than one element, or one with an edge to itself. -/
def IsCyclic (component : Finset α) : Prop := 1 < component.card ∨ ∃ a ∈ component, edge a a

/-- A directed cycle: its elements in their order, each with an edge to the next and the last with
an edge to the first. -/
def IsCycle : List α → Prop
  | [] => False
  | a :: rest => (a :: rest).Nodup ∧ List.IsChain edge (a :: (rest ++ [a]))

variable {edge} {a b c : α}

/-! ### Mutual reachability -/

theorem Mutual.refl (a : α) :
  Mutual edge a a
  := ⟨.refl, .refl⟩

theorem Mutual.symm (h : Mutual edge a b) :
  Mutual edge b a
  := ⟨h.2, h.1⟩

theorem Mutual.trans (h : Mutual edge a b) (h' : Mutual edge b c) :
  Mutual edge a c
  := ⟨h.1.trans h'.1, h'.2.trans h.2⟩

/-- What is closed under edges has all that can be reached from it. -/
theorem mem_of_reach {closed : α → Prop} (hclosed : ∀ a b, closed a → edge a b → closed b)
    (ha : closed a) (h : ReflTransGen edge a b) :
  closed b
  := by
  induction h with
  | refl => exact ha
  | tail _ hedge ih => exact hclosed _ _ ih hedge

namespace IsComponent

variable {component component' : Finset α}

/-- The elements of a component are those that are mutually reachable with any one of them. -/
theorem mem_iff (h : IsComponent edge component) (ha : a ∈ component) :
  b ∈ component ↔ Mutual edge a b
  := by
  obtain ⟨root, -, hmem⟩ := h
  have hroot := (hmem a).mp ha
  rw [hmem]
  constructor
  · exact fun hb => hroot.symm.trans hb
  · exact fun hb => hroot.trans hb

/-- Components with a common element are the same. -/
theorem eq_of_mem (h : IsComponent edge component) (h' : IsComponent edge component')
    (ha : a ∈ component) (ha' : a ∈ component') :
  component = component'
  := by
  ext b
  rw [h.mem_iff ha, h'.mem_iff ha']

/-- An element of a cyclic component comes back to itself. -/
theorem transGen (h : IsComponent edge component) (hcyclic : IsCyclic edge component)
    (ha : a ∈ component) :
  TransGen edge a a
  := by
  have hother : ∀ b ∈ component, b ≠ a → TransGen edge a a := by
    intro b hb hne
    obtain ⟨hab, hba⟩ := (h.mem_iff ha).mp hb
    rcases reflTransGen_iff_eq_or_transGen.mp hab with hsame | hab
    · exact absurd hsame hne
    · exact hab.trans_left hba
  rcases hcyclic with hcard | ⟨b, hb, hloop⟩
  · obtain ⟨b, hb, hne⟩ := Finset.exists_mem_ne hcard a
    exact hother b hb hne
  · by_cases hsame : b = a
    · rw [hsame] at hloop
      exact .single hloop
    · exact hother b hb hsame

/-- A component with an element that comes back to itself is cyclic. -/
theorem isCyclic (h : IsComponent edge component) (ha : a ∈ component)
    (hreturns : TransGen edge a a) :
  IsCyclic edge component
  := by
  obtain ⟨b, hedge, hba⟩ := TransGen.head'_iff.mp hreturns
  by_cases hsame : b = a
  · rw [hsame] at hedge
    exact Or.inr ⟨a, ha, hedge⟩
  · left
    apply Finset.one_lt_card.mpr
    exact ⟨b, (h.mem_iff ha).mpr ⟨.single hedge, hba⟩, a, ha, hsame⟩

end IsComponent

/-! ### Cycles -/

/-- All that comes later in a chain is reached. -/
theorem transGen_of_isChain {rest : List α} (h : List.IsChain edge (a :: rest)) (hb : b ∈ rest) :
  TransGen edge a b
  := by
  induction rest generalizing a with
  | nil => cases hb
  | cons first rest ih =>
      obtain ⟨hedge, hrest⟩ := List.isChain_cons_cons.mp h
      rcases List.mem_cons.mp hb with rfl | hb
      · exact .single hedge
      · exact .head hedge (ih hrest hb)

namespace IsCycle

/-- The elements of a cycle come back to themselves by way of each other. -/
theorem transGen {nodes : List α} (h : IsCycle edge nodes) (ha : a ∈ nodes) (hb : b ∈ nodes) :
  TransGen edge a b
  := by
  cases nodes with
  | nil => cases h
  | cons first rest =>
      obtain ⟨-, hchain⟩ := h
      have hfrom : ∀ c ∈ first :: rest, TransGen edge first c := by
        intro c hc
        apply transGen_of_isChain hchain
        rcases List.mem_cons.mp hc with rfl | hc
        · exact List.mem_append_right _ List.mem_cons_self
        · exact List.mem_append_left _ hc
      have hto : ∀ c ∈ first :: rest, TransGen edge c first := by
        intro c hc
        rcases List.mem_cons.mp hc with rfl | hc
        · exact hfrom c List.mem_cons_self
        · obtain ⟨before, after, rfl⟩ := List.append_of_mem hc
          rw [List.append_assoc, List.cons_append, List.isChain_cons_split] at hchain
          apply transGen_of_isChain hchain.2
          exact List.mem_append_right _ List.mem_cons_self
      exact (hto a ha).trans (hfrom b hb)

/-- A cycle lies within one component. -/
theorem connected {nodes : List α} (h : IsCycle edge nodes) (ha : a ∈ nodes) (hb : b ∈ nodes) :
  Mutual edge a b
  := ⟨(h.transGen ha hb).to_reflTransGen, (h.transGen hb ha).to_reflTransGen⟩

/-- A cycle of some edges is one of other edges that have those between its elements. -/
theorem mono {edge' : α → α → Prop} {nodes : List α} (h : IsCycle edge nodes)
    (hsub : ∀ a ∈ nodes, ∀ b ∈ nodes, edge a b → edge' a b) :
  IsCycle edge' nodes
  := by
  cases nodes with
  | nil => cases h
  | cons first rest =>
      have hmem : ∀ a ∈ first :: (rest ++ [first]), a ∈ first :: rest := by
        intro a ha
        rw [← List.cons_append] at ha
        rcases List.mem_append.mp ha with ha | ha
        · exact ha
        · rw [List.mem_singleton.mp ha]
          exact List.mem_cons_self
      use h.1
      apply h.2.imp_of_mem_imp
      intro a b ha hb
      exact hsub a (hmem a ha) b (hmem b hb)

/-- A cycle is not empty. -/
theorem exists_mem {nodes : List α} (h : IsCycle edge nodes) :
  ∃ a, a ∈ nodes
  := by
  cases nodes with
  | nil => cases h
  | cons first rest => exact ⟨first, List.mem_cons_self⟩

end IsCycle

/-- What can be reached is reached by a chain without repetitions. -/
theorem exists_nodup_isChain (h : ReflTransGen edge a b) :
  ∃ rest, (a :: rest).Nodup ∧ List.IsChain edge (a :: rest)
    ∧ (a :: rest).getLast (List.cons_ne_nil a rest) = b
  := by
  induction h using ReflTransGen.head_induction_on with
  | refl => exact ⟨[], List.nodup_singleton b, .singleton b, rfl⟩
  | @head a c hedge _ ih =>
      obtain ⟨rest, hnodup, hchain, hlast⟩ := ih
      by_cases hmem : a ∈ c :: rest
      · -- The chain comes through `a`: what follows there is enough.
        obtain ⟨before, after, hsplit⟩ := List.append_of_mem hmem
        use after
        rw [hsplit] at hnodup
        refine ⟨(List.nodup_append.mp hnodup).2.1, ?_, ?_⟩
        · rw [hsplit] at hchain
          exact hchain.right_of_append
        · simp only [hsplit] at hlast
          rw [List.getLast_append_of_ne_nil _ (List.cons_ne_nil a after)] at hlast
          exact hlast
      · use c :: rest
        refine ⟨List.nodup_cons.mpr ⟨hmem, hnodup⟩, hchain.cons_cons hedge, ?_⟩
        rw [List.getLast_cons (List.cons_ne_nil c rest)]
        exact hlast

/-- What comes back to itself lies on a cycle. -/
theorem exists_isCycle (h : TransGen edge a a) :
  ∃ rest, IsCycle edge (a :: rest)
  := by
  obtain ⟨b, hab, hedge⟩ := TransGen.tail'_iff.mp h
  obtain ⟨rest, hnodup, hchain, hlast⟩ := exists_nodup_isChain hab
  use rest, hnodup
  rw [← List.cons_append, List.isChain_append]
  refine ⟨hchain, .singleton a, ?_⟩
  intro c hc d hd
  rw [List.getLast?_eq_getLast_of_ne_nil (List.cons_ne_nil a rest), hlast] at hc
  cases hc
  cases hd
  exact hedge

/-- An element has a component, if those it is mutually reachable with are finitely many. -/
theorem exists_isComponent {all : Finset α} (h : ∀ b, Mutual edge a b → b ∈ all) :
  ∃ component, IsComponent edge component ∧ a ∈ component
  := by
  classical
  have hmem : ∀ b, b ∈ all.filter (Mutual edge a) ↔ Mutual edge a b := by
    intro b
    rw [Finset.mem_filter, and_iff_right_iff_imp]
    exact h b
  have ha := (hmem a).mpr (Mutual.refl a)
  exact ⟨all.filter (Mutual edge a), ⟨a, ha, hmem⟩, ha⟩

/-- A component that meets a cycle is cyclic and has all of it. -/
theorem IsCycle.subset_component {nodes : List α} {component : Finset α} (h : IsCycle edge nodes)
    (hcomponent : IsComponent edge component) (ha : a ∈ nodes) (hmem : a ∈ component) :
  IsCyclic edge component ∧ ∀ b ∈ nodes, b ∈ component
  := by
  constructor
  · exact hcomponent.isCyclic hmem (h.transGen ha ha)
  · exact fun b hb => (hcomponent.mem_iff hmem).mpr (h.connected ha hb)

/-- An element of a cyclic component lies on a cycle within it. -/
theorem IsComponent.exists_isCycle {component : Finset α} (h : IsComponent edge component)
    (hcyclic : IsCyclic edge component) (ha : a ∈ component) :
  ∃ nodes, IsCycle edge nodes ∧ a ∈ nodes ∧ ∀ b ∈ nodes, b ∈ component
  := by
  obtain ⟨rest, hcycle⟩ := Components.exists_isCycle (h.transGen hcyclic ha)
  refine ⟨a :: rest, hcycle, List.mem_cons_self, ?_⟩
  exact (hcycle.subset_component h List.mem_cons_self ha).2

end Components
