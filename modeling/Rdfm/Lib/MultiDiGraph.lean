import Rdfm.Lib.Walk
import Mathlib.Data.List.Dedup

/-!
# Weighted directed multigraphs

A graph as a mutable multigraph library keeps it: its nodes, and its edges in insertion order, each
with a cost and a datum. Parallel edges are kept; a hop between two nodes costs the cheapest of
them (`hopCost`). `ShortestPath` is what a shortest-path routine promises, and
`MultiDiGraph.shortestPath` is a routine that keeps the promise.
-/

namespace Rdfm.Lib

structure Edge (V E : Type) where
  src : V
  dst : V
  cost : Nat
  data : E
deriving DecidableEq, Repr

structure MultiDiGraph (V E : Type) where
  nodes : List V
  edges : List (Edge V E)
deriving DecidableEq, Repr

namespace MultiDiGraph

variable {V E : Type} [DecidableEq V]

def empty : MultiDiGraph V E := ⟨[], []⟩

/-- Adding a node that is already there changes nothing. -/
def addNode (G : MultiDiGraph V E) (v : V) : MultiDiGraph V E :=
  if v ∈ G.nodes then G else { G with nodes := G.nodes ++ [v] }

/-- A new edge, with its end points as nodes, parallel to the ones already there. -/
def addEdge (G : MultiDiGraph V E) (e : Edge V E) : MultiDiGraph V E :=
  { (G.addNode e.src).addNode e.dst with edges := G.edges ++ [e] }

def hasNode (G : MultiDiGraph V E) (v : V) : Bool := v ∈ G.nodes

/-- The edges leaving the nodes of `nbunch`, in insertion order for each of them. -/
def outEdges (G : MultiDiGraph V E) (nbunch : List V) : List (Edge V E) :=
  nbunch.flatMap fun u => G.edges.filter fun e => e.src = u

/-- Some edge leads from `u` to `v`. -/
def Adj (G : MultiDiGraph V E) (u v : V) : Prop := ∃ e ∈ G.edges, e.src = u ∧ e.dst = v

def successors (G : MultiDiGraph V E) (u : V) : List V :=
  ((G.edges.filter fun e => e.src = u).map Edge.dst).dedup

/-- The cost of a hop: the cheapest of the parallel edges. -/
def hopCost (G : MultiDiGraph V E) (u v : V) : Nat :=
  ((G.edges.filter fun e => e.src = u ∧ e.dst = v).map Edge.cost).min?.getD 0

/-- The weight of a node path. -/
def weight (G : MultiDiGraph V E) (p : List V) : Nat := walkCost G.hopCost p

def shortestPath (G : MultiDiGraph V E) (s t : V) : Option (List V) :=
  searchWalk G.successors G.hopCost G.edges.length s t

/-! ## Nodes and edges after an update -/

omit [DecidableEq V] in
@[simp] theorem empty_edges : (empty : MultiDiGraph V E).edges = [] := rfl

@[simp] theorem addNode_edges (G : MultiDiGraph V E) (v : V) : (G.addNode v).edges = G.edges := by
  unfold addNode
  split <;> rfl

@[simp] theorem mem_addNode {G : MultiDiGraph V E} {v w : V} :
    w ∈ (G.addNode v).nodes ↔ w = v ∨ w ∈ G.nodes := by
  unfold addNode
  split
  · constructor
    · exact .inr
    · rintro (rfl | h) <;> assumption
  · simp [or_comm]

@[simp] theorem addEdge_edges (G : MultiDiGraph V E) (e : Edge V E) :
    (G.addEdge e).edges = G.edges ++ [e] := rfl

theorem mem_addEdge_of_mem {G : MultiDiGraph V E} {e : Edge V E} {w : V} (h : w ∈ G.nodes) :
    w ∈ (G.addEdge e).nodes := by
  simp [addEdge, h]

theorem mem_successors {G : MultiDiGraph V E} {u v : V} : v ∈ G.successors u ↔ G.Adj u v := by
  simp only [successors, List.mem_dedup, List.mem_map, List.mem_filter, decide_eq_true_eq, Adj]
  constructor
  · rintro ⟨e, ⟨he, hs⟩, hd⟩; exact ⟨e, he, hs, hd⟩
  · rintro ⟨e, he, hs, hd⟩; exact ⟨e, ⟨he, hs⟩, hd⟩

/-- When every edge costs `k`, so does every hop. -/
theorem hopCost_const {G : MultiDiGraph V E} {k : Nat} (hk : ∀ e ∈ G.edges, e.cost = k) {u v : V}
    (h : G.Adj u v) : G.hopCost u v = k := by
  obtain ⟨e, he, hs, hd⟩ := h
  unfold hopCost
  have hmem : e ∈ G.edges.filter fun e => e.src = u ∧ e.dst = v := by
    simp [he, hs, hd]
  have hall : ∀ c ∈ (G.edges.filter fun e => e.src = u ∧ e.dst = v).map Edge.cost, c = k := by
    intro c hc
    obtain ⟨e', he', rfl⟩ := List.mem_map.1 hc
    exact hk e' (List.mem_filter.1 he').1
  cases hm : ((G.edges.filter fun e => e.src = u ∧ e.dst = v).map Edge.cost).min? with
  | none =>
    rw [List.min?_eq_none_iff, List.map_eq_nil_iff] at hm
    rw [hm] at hmem
    cases hmem
  | some c => exact hall c (List.min?_mem hm)

end MultiDiGraph

/-! ## Shortest paths -/

/-- What a shortest-path routine promises for end points that are nodes of the graph: a path it
returns is a walk of minimum weight, and it returns none only when there is no walk. -/
structure ShortestPath {V E : Type} [DecidableEq V]
    (sp : MultiDiGraph V E → V → V → Option (List V)) : Prop where
  walk : ∀ {G s t p}, s ∈ G.nodes → t ∈ G.nodes → sp G s t = some p → Walk G.Adj s t p
  minimal : ∀ {G s t p q}, s ∈ G.nodes → t ∈ G.nodes → sp G s t = some p → Walk G.Adj s t q →
    G.weight p ≤ G.weight q
  noPath : ∀ {G s t q}, s ∈ G.nodes → t ∈ G.nodes → sp G s t = none → ¬ Walk G.Adj s t q

namespace ShortestPath

variable {V E : Type} [DecidableEq V] {sp : MultiDiGraph V E → V → V → Option (List V)}
  {G : MultiDiGraph V E} {s t : V}

/-- On a graph whose edges all cost one, a shortest path is a geodesic. -/
theorem geodesic (h : ShortestPath sp) (hone : ∀ e ∈ G.edges, e.cost = 1) (hs : s ∈ G.nodes)
    (ht : t ∈ G.nodes) {p : List V} (hp : sp G s t = some p) : Geodesic G.Adj s t p := by
  have hw := h.walk hs ht hp
  refine ⟨hw, fun q hq => ?_⟩
  have hle := h.minimal hs ht hp hq
  have unit : ∀ {r}, Walk G.Adj s t r → G.weight r = 1 * (r.length - 1) := fun hr =>
    walkCost_const (fun a b => MultiDiGraph.hopCost_const hone) hr.chain
  rw [unit hw, unit hq] at hle
  have := List.length_pos_of_ne_nil hq.ne_nil
  omega

/-- Conversely a geodesic may be what the routine returns. -/
theorem exists_returning (h : ShortestPath sp) (hone : ∀ e ∈ G.edges, e.cost = 1) {p : List V}
    (hp : Geodesic G.Adj s t p) :
    ∃ sp' : MultiDiGraph V E → V → V → Option (List V), ShortestPath sp' ∧ sp' G s t = some p := by
  classical
  refine ⟨fun G' s' t' => if G' = G ∧ s' = s ∧ t' = t then some p else sp G' s' t', ⟨?_, ?_, ?_⟩,
    by simp⟩
  · intro G' s' t' q hs ht hq
    split at hq
    · next heq =>
      obtain ⟨rfl, rfl, rfl⟩ := heq
      rw [Option.some.injEq] at hq
      exact hq ▸ hp.walk
    · exact h.walk hs ht hq
  · intro G' s' t' q r hs ht hq hr
    split at hq
    · next heq =>
      obtain ⟨rfl, rfl, rfl⟩ := heq
      rw [Option.some.injEq] at hq
      subst hq
      have unit : ∀ {r}, Walk G'.Adj s' t' r → G'.weight r = 1 * (r.length - 1) := fun hr =>
        walkCost_const (fun a b => MultiDiGraph.hopCost_const hone) hr.chain
      rw [unit hp.walk, unit hr]
      have := hp.minimal r hr
      omega
    · exact h.minimal hs ht hq hr
  · intro G' s' t' q hs ht hq
    split at hq
    · cases hq
    · exact h.noPath hs ht hq

end ShortestPath

theorem MultiDiGraph.shortestPath_spec {V E : Type} [DecidableEq V] (G : MultiDiGraph V E) (s t : V) :
    match G.shortestPath s t with
    | some p => Walk G.Adj s t p ∧ ∀ q, Walk G.Adj s t q → G.weight p ≤ G.weight q
    | none => ∀ q, ¬ Walk G.Adj s t q := by
  have hadj : (fun a b => b ∈ G.successors a) = G.Adj := by
    funext a b
    exact propext mem_successors
  have targets : ∀ a b, b ∈ G.successors a → b ∈ G.edges.map Edge.dst := by
    intro a b hb
    obtain ⟨e, he, -, hd⟩ := mem_successors.1 hb
    exact List.mem_map.2 ⟨e, he, hd⟩
  have hlen : (G.edges.map Edge.dst).length ≤ G.edges.length := by simp
  have := searchWalk_spec G.successors G.hopCost targets hlen s t
  rw [hadj] at this
  exact this

/-- Exhaustive search is a shortest-path routine. -/
theorem shortestPath_search {V E : Type} [DecidableEq V] :
    ShortestPath (MultiDiGraph.shortestPath : MultiDiGraph V E → V → V → Option (List V)) := by
  refine ⟨?_, ?_, ?_⟩
  · intro G s t p _ _ hp
    have := G.shortestPath_spec s t
    rw [hp] at this
    exact this.1
  · intro G s t p q _ _ hp hq
    have := G.shortestPath_spec s t
    rw [hp] at this
    exact this.2 q hq
  · intro G s t q _ _ hp
    have := G.shortestPath_spec s t
    rw [hp] at this
    exact this q

end Rdfm.Lib
