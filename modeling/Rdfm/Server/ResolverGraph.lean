import Rdfm.Server.Resolver

/-!
# What the resolver's graph holds

`Installable` is the meaning of `requirements_satisfied`. Over it, `Hop` is the relation on
versions that the graph of `resolve` represents: hops the device itself can make from its version,
and hops between versions of packages. `resolve_ok_some` reads a successful resolution back as a
geodesic of `Hop`; `resolve_eq_of_ready` computes a resolution forward.
-/

namespace Rdfm.Server

open Rdfm.Lib

/-! ## Requirements -/

/-- `update` can be installed on top of `base`: another version for the same device type, whose
every requirement `base` states with the required value. -/
structure Installable (base update : Metadata) : Prop where
  version : ∃ b u, base.lookup metaSoftVer = some b ∧ update.lookup metaSoftVer = some u ∧ b ≠ u
  devType : ∃ ty, base.lookup metaDeviceType = some ty ∧ update.lookup metaDeviceType = some ty
  clauses : ∀ k v, update.lookup k = some v → startsWith k requiresPrefix = true →
    base.lookup (removePrefix k requiresPrefix) = some v

theorem getItem_ok_iff {d : Metadata} {k : String} {v : MetaValue} :
    getItem d k = .ok v ↔ d.lookup k = some v := by
  unfold getItem
  cases d.lookup k <;> simp

theorem foldl_checkClause (base : Metadata) (items : List ((_ : String) × MetaValue)) (b : Bool) :
    items.foldl (checkClause base) b = true ↔ b = true ∧
      ∀ e ∈ items, startsWith e.1 requiresPrefix = true →
        base.lookup (removePrefix e.1 requiresPrefix) = some e.2 := by
  induction items generalizing b with
  | nil => simp
  | cons e items ih =>
    have step : checkClause base b e = true ↔ b = true ∧
        (startsWith e.1 requiresPrefix = true →
          base.lookup (removePrefix e.1 requiresPrefix) = some e.2) := by
      unfold checkClause
      cases startsWith e.1 requiresPrefix with
      | false => simp
      | true =>
        cases hl : base.lookup (removePrefix e.1 requiresPrefix) with
        | none => simp
        | some w =>
          by_cases hw : w = e.2
          · simp [hw]
          · simp [hw]
    rw [List.foldl_cons, ih, step, List.forall_mem_cons, and_assoc]

/-- A check that returns has read both keys of both dictionaries. -/
theorem requirementsSatisfied_ok {base update : Metadata} {r : Bool}
    (h : requirementsSatisfied base update = .ok r) :
    ∃ b u ty ty', base.lookup metaSoftVer = some b ∧ update.lookup metaSoftVer = some u ∧
      base.lookup metaDeviceType = some ty ∧ update.lookup metaDeviceType = some ty' ∧
      r = (update.entries.foldl (checkClause base) true && decide (b ≠ u) && decide (ty = ty')) := by
  unfold requirementsSatisfied at h
  obtain ⟨b, hb, h⟩ := bind_ok_iff.1 h
  obtain ⟨u, hu, h⟩ := bind_ok_iff.1 h
  obtain ⟨ty, hty, h⟩ := bind_ok_iff.1 h
  obtain ⟨ty', hty', h⟩ := bind_ok_iff.1 h
  simp only [pure, Except.pure, Except.ok.injEq] at h
  refine ⟨b, u, ty, ty', getItem_ok_iff.1 hb, getItem_ok_iff.1 hu, getItem_ok_iff.1 hty,
    getItem_ok_iff.1 hty', ?_⟩
  rw [← h]
  by_cases h1 : b = u <;> by_cases h2 : ty = ty' <;> simp [h1, h2]

theorem requirementsSatisfied_of_lookup {base update : Metadata} {b u ty ty' : MetaValue}
    (hb : base.lookup metaSoftVer = some b) (hu : update.lookup metaSoftVer = some u)
    (hty : base.lookup metaDeviceType = some ty)
    (hty' : update.lookup metaDeviceType = some ty') :
    ∃ r, requirementsSatisfied base update = .ok r := by
  unfold requirementsSatisfied
  rw [getItem_ok_iff.2 hb, getItem_ok_iff.2 hu, getItem_ok_iff.2 hty, getItem_ok_iff.2 hty']
  exact ⟨_, rfl⟩

/-- The check answers `true` exactly for installable updates. -/
theorem requirementsSatisfied_iff {base update : Metadata} :
    requirementsSatisfied base update = .ok true ↔ Installable base update := by
  have clauses : update.entries.foldl (checkClause base) true = true ↔
      ∀ k v, update.lookup k = some v → startsWith k requiresPrefix = true →
        base.lookup (removePrefix k requiresPrefix) = some v := by
    rw [foldl_checkClause]
    constructor
    · rintro ⟨-, h⟩ k v hk
      exact h ⟨k, v⟩ (AList.mem_lookup_iff.1 hk)
    · intro h
      exact ⟨rfl, fun e he => h e.1 e.2 (AList.mem_lookup_iff.2 he)⟩
  constructor
  · intro h
    obtain ⟨b, u, ty, ty', hb, hu, hty, hty', hr⟩ := requirementsSatisfied_ok h
    have hr' := hr.symm
    simp only [Bool.and_eq_true, decide_eq_true_eq] at hr'
    obtain ⟨⟨hc, hv⟩, rfl⟩ := hr'
    exact ⟨⟨b, u, hb, hu, hv⟩, ⟨ty, hty, hty'⟩, clauses.1 hc⟩
  · rintro ⟨⟨b, u, hb, hu, hv⟩, ⟨ty, hty, hty'⟩, hc⟩
    obtain ⟨r, hr⟩ := requirementsSatisfied_of_lookup hb hu hty hty'
    obtain ⟨b', u', ty₁, ty₂, hb', hu', hty₁, hty₂, hr'⟩ := requirementsSatisfied_ok hr
    rw [hb, Option.some.injEq] at hb'
    rw [hu, Option.some.injEq] at hu'
    rw [hty, Option.some.injEq] at hty₁
    rw [hty', Option.some.injEq] at hty₂
    subst hb' hu' hty₁ hty₂
    rw [hr, hr', clauses.2 hc]
    simp [hv]

/-! ## Hops between versions -/

def HasVersion (m : Metadata) (v : String) : Prop := m.lookup metaSoftVer = some (.str v)

instance (m : Metadata) (v : String) : Decidable (HasVersion m v) :=
  inferInstanceAs (Decidable (m.lookup metaSoftVer = some (.str v)))

/-- The device can install some package of version `v`. -/
def DeviceHop (device : Metadata) (packages : List PackageInfo) (v : String) : Prop :=
  ∃ p ∈ packages, Installable device p.info ∧ HasVersion p.info v

/-- Some package of version `v` can be installed on some package of version `u`. -/
def PackageHop (packages : List PackageInfo) (u v : String) : Prop :=
  ∃ b ∈ packages, ∃ p ∈ packages, Installable b.info p.info ∧ HasVersion b.info u ∧
    HasVersion p.info v

/-- The version steps the resolver considers for a device. -/
def Hop (device : Metadata) (packages : List PackageInfo) (u v : String) : Prop :=
  (HasVersion device u ∧ DeviceHop device packages v) ∨ PackageHop packages u v

theorem HasVersion.unique {m : Metadata} {u v : String} (hu : HasVersion m u)
    (hv : HasVersion m v) : u = v := by
  unfold HasVersion at hu hv
  rw [hu] at hv
  simpa using hv

theorem Installable.version_ne {b p : Metadata} (h : Installable b p) {u v : String}
    (hu : HasVersion b u) (hv : HasVersion p v) : u ≠ v := by
  obtain ⟨x, y, hx, hy, hne⟩ := h.version
  unfold HasVersion at hu hv
  rw [hu, Option.some.injEq] at hx
  rw [hv, Option.some.injEq] at hy
  rintro rfl
  exact hne (hx ▸ hy ▸ rfl)

/-- No hop stays at a version. -/
theorem Hop.ne {device : Metadata} {packages : List PackageInfo} {u v : String}
    (h : Hop device packages u v) : u ≠ v := by
  obtain ⟨hu, p, -, hi, hv⟩ | ⟨b, -, p, -, hi, hu, hv⟩ := h
  · exact hi.version_ne hu hv
  · exact hi.version_ne hu hv

/-! ## Edges -/

theorem asNode_ok_iff {v : MetaValue} {s : String} : asNode v = .ok s ↔ v = .str s := by
  cases v <;> simp [asNode]

theorem candidateEdge_some_iff {base : Metadata} {p : PackageInfo} {i : Nat}
    {e : Edge String Nat} :
    candidateEdge base (p, i) = .ok (some e) ↔ Installable base p.info ∧ HasVersion base e.src ∧
      HasVersion p.info e.dst ∧ e.cost = 1 ∧ e.data = i := by
  have node : ∀ {m : Metadata} {s : String},
      (getItem m metaSoftVer >>= asNode) = .ok s ↔ HasVersion m s := by
    intro m s
    simp only [bind_ok_iff, getItem_ok_iff, asNode_ok_iff, HasVersion]
    exact ⟨fun ⟨v, hv, h⟩ => h ▸ hv, fun h => ⟨_, h, rfl⟩⟩
  constructor
  · intro h
    obtain ⟨r, hr, h⟩ := bind_ok_iff.1 h
    cases r with
    | false => simp [pure, Except.pure] at h
    | true =>
      simp only [↓reduceIte, ← bind_assoc] at h
      obtain ⟨src, hsrc, h⟩ := bind_ok_iff.1 h
      obtain ⟨dst, hdst, h⟩ := bind_ok_iff.1 h
      simp only [pure, Except.pure, Except.ok.injEq, Option.some.injEq] at h
      subst h
      exact ⟨requirementsSatisfied_iff.1 hr, node.1 hsrc, node.1 hdst, rfl, rfl⟩
  · obtain ⟨src, dst, cost, data⟩ := e
    rintro ⟨hi, hs, hd, rfl, rfl⟩
    refine bind_ok_iff.2 ⟨true, requirementsSatisfied_iff.2 hi, ?_⟩
    simp only [↓reduceIte, ← bind_assoc]
    exact bind_ok_iff.2 ⟨src, node.2 hs, bind_ok_iff.2 ⟨dst, node.2 hd, rfl⟩⟩

/-- The edges out of a base are one for each package installable on it. -/
theorem mem_edgesFrom {packages : List PackageInfo} {base : Metadata}
    {es : List (Edge String Nat)} (h : edgesFrom packages base = .ok es) {e : Edge String Nat} :
    e ∈ es ↔ ∃ p, packages[e.data]? = some p ∧ Installable base p.info ∧ HasVersion base e.src ∧
      HasVersion p.info e.dst ∧ e.cost = 1 := by
  obtain ⟨os, hos, h⟩ := bind_ok_iff.1 h
  simp only [pure, Except.pure, Except.ok.injEq] at h
  subst h
  rw [List.reduceOption_mem_iff, mem_of_mapM_ok hos]
  constructor
  · rintro ⟨⟨p, i⟩, hp, h⟩
    obtain ⟨hi, hs, hd, hc, rfl⟩ := candidateEdge_some_iff.1 h
    exact ⟨p, List.mk_mem_zipIdx_iff_getElem?.1 hp, hi, hs, hd, hc⟩
  · rintro ⟨p, hp, hi, hs, hd, hc⟩
    exact ⟨(p, e.data), List.mk_mem_zipIdx_iff_getElem?.2 hp,
      candidateEdge_some_iff.2 ⟨hi, hs, hd, hc, rfl⟩⟩

theorem foldl_addEdge_edges (es : List (Edge String Nat)) (G : PackageGraph) :
    (es.foldl MultiDiGraph.addEdge G).edges = G.edges ++ es := by
  induction es generalizing G with
  | nil => simp
  | cons e es ih => simp [ih]

theorem foldl_addEdge_nodes (es : List (Edge String Nat)) {G : PackageGraph} {v : String}
    (hv : v ∈ G.nodes) : v ∈ (es.foldl MultiDiGraph.addEdge G).nodes := by
  induction es generalizing G with
  | nil => exact hv
  | cons e es ih => exact ih (MultiDiGraph.mem_addEdge_of_mem hv)

theorem foldl_addNode_edges (vs : List String) (G : PackageGraph) :
    (vs.foldl MultiDiGraph.addNode G).edges = G.edges := by
  induction vs generalizing G with
  | nil => rfl
  | cons v vs ih => simp [ih]

theorem mem_foldl_addNode {vs : List String} {G : PackageGraph} {w : String} :
    w ∈ (vs.foldl MultiDiGraph.addNode G).nodes ↔ w ∈ vs ∨ w ∈ G.nodes := by
  induction vs generalizing G with
  | nil => simp
  | cons v vs ih =>
    rw [List.foldl_cons, ih, MultiDiGraph.mem_addNode, List.mem_cons]
    tauto

/-! ## The graph -/

/-- The target is the device's own version or that of a package for the device's type. -/
def Known (device : Metadata) (packages : List PackageInfo) (u t : String) : Prop :=
  t = u ∨ ∃ p ∈ packages, HasVersion p.info t ∧
    ∃ ty, device.lookup metaDeviceType = some ty ∧ p.info.lookup metaDeviceType = some ty

theorem versionNode_some_iff {device : Metadata} {p : PackageInfo} {v : String} :
    versionNode device p = .ok (some v) ↔ HasVersion p.info v ∧
      ∃ ty, device.lookup metaDeviceType = some ty ∧ p.info.lookup metaDeviceType = some ty := by
  constructor
  · intro h
    obtain ⟨ty, hty, h⟩ := bind_ok_iff.1 h
    obtain ⟨ty', hty', h⟩ := bind_ok_iff.1 h
    by_cases heq : ty = ty'
    · subst heq
      simp only [ne_eq, not_true_eq_false, ↓reduceIte] at h
      obtain ⟨x, hx, h⟩ := bind_ok_iff.1 h
      obtain ⟨s, hs, h⟩ := bind_ok_iff.1 h
      simp only [pure, Except.pure, Except.ok.injEq, Option.some.injEq] at h
      rw [asNode_ok_iff] at hs
      subst h hs
      exact ⟨getItem_ok_iff.1 hx, ty, getItem_ok_iff.1 hty', getItem_ok_iff.1 hty⟩
    · simp [heq, pure, Except.pure] at h
  · rintro ⟨hv, ty, hd, hp⟩
    refine bind_ok_iff.2 ⟨ty, getItem_ok_iff.2 hp, bind_ok_iff.2 ⟨ty, getItem_ok_iff.2 hd, ?_⟩⟩
    simp only [ne_eq, not_true_eq_false, ↓reduceIte]
    exact bind_ok_iff.2 ⟨_, getItem_ok_iff.2 hv, rfl⟩

theorem versionGraph_ok {device : Metadata} {packages : List PackageInfo} {u : String}
    {G : PackageGraph} (h : versionGraph device packages u = .ok G) :
    G.edges = [] ∧ ∀ t, t ∈ G.nodes ↔ Known device packages u t := by
  obtain ⟨vs, hvs, h⟩ := bind_ok_iff.1 h
  simp only [pure, Except.pure, Except.ok.injEq] at h
  subst h
  refine ⟨by simp [foldl_addNode_edges], fun t => ?_⟩
  rw [mem_foldl_addNode, List.reduceOption_mem_iff, mem_of_mapM_ok hvs]
  simp only [versionNode_some_iff, MultiDiGraph.mem_addNode, MultiDiGraph.empty,
    List.not_mem_nil, or_false, Known]
  exact or_comm

/-- The edges of the finished graph: first the device's, then the packages'. -/
theorem packageGraph_ok {device : Metadata} {packages : List PackageInfo} {G₀ G : PackageGraph}
    (h : packageGraph device packages G₀ = .ok G) :
    ∃ deviceEdges packageEdges, G.edges = G₀.edges ++ (deviceEdges ++ packageEdges) ∧
      (∀ v ∈ G₀.nodes, v ∈ G.nodes) ∧
      (∀ e, e ∈ deviceEdges ↔ ∃ p, packages[e.data]? = some p ∧ Installable device p.info ∧
        HasVersion device e.src ∧ HasVersion p.info e.dst ∧ e.cost = 1) ∧
      (∀ e, e ∈ packageEdges ↔ ∃ b ∈ packages, ∃ p, packages[e.data]? = some p ∧
        Installable b.info p.info ∧ HasVersion b.info e.src ∧ HasVersion p.info e.dst ∧
        e.cost = 1) := by
  obtain ⟨ds, hds, h⟩ := bind_ok_iff.1 h
  obtain ⟨ps, hps, h⟩ := bind_ok_iff.1 h
  simp only [pure, Except.pure, Except.ok.injEq] at h
  subst h
  refine ⟨ds, ps.flatten, foldl_addEdge_edges _ _, fun v hv => foldl_addEdge_nodes _ hv,
    fun e => mem_edgesFrom hds, fun e => ?_⟩
  rw [List.mem_flatten]
  constructor
  · rintro ⟨es, hes, he⟩
    obtain ⟨b, hb, hbe⟩ := (mem_of_mapM_ok hps).1 hes
    obtain ⟨p, hp⟩ := (mem_edgesFrom hbe).1 he
    exact ⟨b, hb, p, hp⟩
  · rintro ⟨b, hb, p, hp⟩
    obtain ⟨rs, hrs, hbe⟩ := exists_of_mapM_ok hps hb
    exact ⟨rs, hrs, (mem_edgesFrom hbe).2 ⟨p, hp⟩⟩

/-! ## One hop of the path -/

theorem argmin_const {α : Type} {f : α → Nat} {k : Nat} {l : List α} (h : ∀ a ∈ l, f a = k) :
    l.argmin f = l.head? := by
  have keep : ∀ (l : List α) (a : α), f a = k → (∀ b ∈ l, f b = k) →
      l.foldl (List.argAux fun b c => f b < f c) (some a) = some a := by
    intro l
    induction l with
    | nil => intro a _ _; rfl
    | cons b l ih =>
      intro a ha hl
      have hb := hl b List.mem_cons_self
      rw [List.foldl_cons, List.argAux]
      simp only [ha, hb, Nat.lt_irrefl, ↓reduceIte]
      exact ih a ha fun c hc => hl c (List.mem_cons_of_mem _ hc)
  cases l with
  | nil => rfl
  | cons a l =>
    exact keep l a (h a List.mem_cons_self) fun b hb => h b (List.mem_cons_of_mem _ hb)

/-- `G` is the graph `resolve` searches for a device running `u`. -/
def Built (device : Metadata) (packages : List PackageInfo) (u : String) (G : PackageGraph) :
    Prop :=
  ∃ G₀, versionGraph device packages u = .ok G₀ ∧ packageGraph device packages G₀ = .ok G

namespace Built

variable {device : Metadata} {packages : List PackageInfo} {u : String} {G : PackageGraph}

theorem cost_one (h : Built device packages u G) : ∀ e ∈ G.edges, e.cost = 1 := by
  obtain ⟨G₀, h₀, hG⟩ := h
  obtain ⟨ds, ps, hE, -, hds, hps⟩ := packageGraph_ok hG
  intro e he
  rw [hE, (versionGraph_ok h₀).1, List.nil_append, List.mem_append] at he
  rcases he with he | he
  · obtain ⟨p, -, -, -, -, hc⟩ := (hds e).1 he
    exact hc
  · obtain ⟨b, -, p, -, -, -, -, hc⟩ := (hps e).1 he
    exact hc

theorem mem_nodes (h : Built device packages u G) {t : String} (ht : Known device packages u t) :
    t ∈ G.nodes := by
  obtain ⟨G₀, h₀, hG⟩ := h
  obtain ⟨-, -, -, hN, -, -⟩ := packageGraph_ok hG
  exact hN t (((versionGraph_ok h₀).2 t).2 ht)

/-- The graph represents the hops. -/
theorem adj_iff (h : Built device packages u G) {a b : String} :
    G.Adj a b ↔ Hop device packages a b := by
  obtain ⟨G₀, h₀, hG⟩ := h
  obtain ⟨ds, ps, hE, -, hds, hps⟩ := packageGraph_ok hG
  rw [(versionGraph_ok h₀).1, List.nil_append] at hE
  constructor
  · rintro ⟨e, he, rfl, rfl⟩
    rw [hE, List.mem_append] at he
    rcases he with he | he
    · obtain ⟨p, hp, hi, hs, hd, -⟩ := (hds e).1 he
      exact .inl ⟨hs, p, List.mem_of_getElem? hp, hi, hd⟩
    · obtain ⟨b, hb, p, hp, hi, hs, hd, -⟩ := (hps e).1 he
      exact .inr ⟨b, hb, p, List.mem_of_getElem? hp, hi, hs, hd⟩
  · rintro (⟨hs, p, hp, hi, hd⟩ | ⟨b, hb, p, hp, hi, hs, hd⟩)
    · obtain ⟨i, hi'⟩ := List.getElem?_of_mem hp
      exact ⟨⟨a, b, 1, i⟩, hE ▸ List.mem_append_left _ ((hds _).2 ⟨p, hi', hi, hs, hd, rfl⟩),
        rfl, rfl⟩
    · obtain ⟨i, hi'⟩ := List.getElem?_of_mem hp
      exact ⟨⟨_, _, 1, i⟩,
        hE ▸ List.mem_append_right _ ((hps _).2 ⟨b, hb, p, hi', hi, hs, hd, rfl⟩), rfl, rfl⟩

theorem adj_eq (h : Built device packages u G) : G.Adj = Hop device packages := by
  funext a b
  exact propext h.adj_iff

/-- The package chosen for a hop is the first inserted edge between its ends: an edge back from
the far end never leads to it again. -/
theorem hopPackage_eq (h : Built device packages u G) (a b : String) :
    hopPackage G (a, b) =
      match (G.edges.filter fun e => decide (e.src = a) && decide (e.dst = b)).head? with
      | some e => .ok e.data
      | none => .error .emptyMin := by
  have loops : (G.edges.filter fun e => decide (e.src = b) && decide (e.dst = b)) = [] := by
    rw [List.filter_eq_nil_iff]
    intro e he hb
    simp only [Bool.and_eq_true, decide_eq_true_eq] at hb
    exact (h.adj_iff.1 ⟨e, he, rfl, rfl⟩).ne (hb.1.trans hb.2.symm)
  have edges : (G.outEdges [a, b]).filter (fun e => e.dst = b) =
      G.edges.filter fun e => decide (e.src = a) && decide (e.dst = b) := by
    simp only [MultiDiGraph.outEdges, List.flatMap_cons, List.flatMap_nil, List.append_nil,
      List.filter_append, List.filter_filter]
    simp only [Bool.and_comm (decide (Edge.dst _ = b)), loops, List.append_nil]
  have first : ((G.outEdges [a, b]).filter fun e => e.dst = b).argmin Edge.cost =
      (G.edges.filter fun e => decide (e.src = a) && decide (e.dst = b)).head? := by
    rw [edges]
    exact argmin_const fun e he => h.cost_one e (List.mem_filter.1 he).1
  rw [← first]
  cases hmin : ((G.outEdges [a, b]).filter fun e => e.dst = b).argmin Edge.cost with
  | none => simp only [hopPackage, hmin]
  | some e => simp only [hopPackage, hmin]

/-- Every hop of the graph yields a package that leads to its far end. -/
theorem hopPackage_ok (h : Built device packages u G) {a b : String} (hab : G.Adj a b) :
    ∃ i p, hopPackage G (a, b) = .ok i ∧ packages[i]? = some p ∧ HasVersion p.info b := by
  obtain ⟨e, he, hs, hd⟩ := hab
  rw [h.hopPackage_eq]
  cases hf : (G.edges.filter fun e => decide (e.src = a) && decide (e.dst = b)).head? with
  | none =>
    rw [List.head?_eq_none_iff, List.filter_eq_nil_iff] at hf
    exact absurd (by simp [hs, hd]) (hf e he)
  | some e' =>
    obtain ⟨he', hab'⟩ := List.mem_filter.1 (List.mem_of_mem_head? hf)
    simp only [Bool.and_eq_true, decide_eq_true_eq] at hab'
    obtain ⟨G₀, h₀, hG⟩ := h
    obtain ⟨ds, ps, hE, -, hds, hps⟩ := packageGraph_ok hG
    rw [hE, (versionGraph_ok h₀).1, List.nil_append, List.mem_append] at he'
    rcases he' with he' | he'
    · obtain ⟨p, hp, -, -, hpd, -⟩ := (hds e').1 he'
      exact ⟨e'.data, p, rfl, hp, hab'.2 ▸ hpd⟩
    · obtain ⟨b', -, p, hp, -, -, hpd, -⟩ := (hps e').1 he'
      exact ⟨e'.data, p, rfl, hp, hab'.2 ▸ hpd⟩

/-- A hop the device can make itself is taken with a package it can install: the device's edges
were inserted before the packages'. -/
theorem hopPackage_device (h : Built device packages u G) (hu : HasVersion device u) {v : String}
    (hv : DeviceHop device packages v) {i : Nat} (hi : hopPackage G (u, v) = .ok i) :
    ∃ p, packages[i]? = some p ∧ Installable device p.info := by
  rw [h.hopPackage_eq] at hi
  obtain ⟨G₀, h₀, hG⟩ := h
  obtain ⟨ds, ps, hE, -, hds, -⟩ := packageGraph_ok hG
  rw [hE, (versionGraph_ok h₀).1, List.nil_append, List.filter_append, List.head?_append] at hi
  obtain ⟨p, hp, hinst, hpv⟩ := hv
  obtain ⟨j, hj⟩ := List.getElem?_of_mem hp
  have hmem : (⟨u, v, 1, j⟩ : Edge String Nat) ∈ ds := (hds _).2 ⟨p, hj, hinst, hu, hpv, rfl⟩
  cases hf : (ds.filter fun e => decide (e.src = u) && decide (e.dst = v)).head? with
  | none =>
    rw [List.head?_eq_none_iff, List.filter_eq_nil_iff] at hf
    exact absurd (by simp) (hf _ hmem)
  | some e =>
    rw [hf] at hi
    simp only [Option.some_or, Except.ok.injEq] at hi
    subst hi
    obtain ⟨p', hp', hi', -⟩ := (hds e).1 (List.mem_filter.1 (List.mem_of_mem_head? hf)).1
    exact ⟨p', hp', hi'⟩

end Built

/-! ## Resolution -/

/-- The package states its version and device type. -/
structure Carries (p : PackageInfo) : Prop where
  version : ∃ v, HasVersion p.info v
  devType : ∃ ty, p.info.lookup metaDeviceType = some ty

theorem PackageInfo.hasVersion_of_lookup (p : PackageInfo) {x : MetaValue}
    (h : p.info.lookup metaSoftVer = some x) : ∃ v, HasVersion p.info v := by
  obtain ⟨s, hs⟩ := p.strings _ (AList.mem_lookup_iff.1 h)
  dsimp only at hs
  subst hs
  exact ⟨s, h⟩

variable {device : Metadata} {packages : List PackageInfo} {policy : BasePolicy} {u t : String}
  {G : PackageGraph} {shortestPath : PackageGraph → String → String → Option (List String)}

theorem candidateEdge_ok_of_carries {base : Metadata} {ty : MetaValue}
    (hu : HasVersion base u) (hty : base.lookup metaDeviceType = some ty) {p : PackageInfo}
    (hp : Carries p) (i : Nat) : ∃ r, candidateEdge base (p, i) = .ok r := by
  obtain ⟨v, hv⟩ := hp.version
  obtain ⟨ty', hty'⟩ := hp.devType
  obtain ⟨r, hr⟩ := requirementsSatisfied_of_lookup hu hv hty hty'
  cases r with
  | true =>
    exact ⟨some ⟨u, v, 1, i⟩, candidateEdge_some_iff.2
      ⟨requirementsSatisfied_iff.1 hr, hu, hv, rfl, rfl⟩⟩
  | false => exact ⟨none, bind_ok_iff.2 ⟨false, hr, rfl⟩⟩

theorem edgesFrom_ok_of_carries {base : Metadata} {ty : MetaValue} (hu : HasVersion base u)
    (hty : base.lookup metaDeviceType = some ty) (hp : ∀ p ∈ packages, Carries p) :
    ∃ es, edgesFrom packages base = .ok es := by
  have each : ∀ a ∈ packages.zipIdx, ∃ r, candidateEdge base a = .ok r := fun a ha =>
    candidateEdge_ok_of_carries hu hty
      (hp a.1 (List.mem_of_getElem? (List.mem_zipIdx_iff_getElem?.1 ha))) a.2
  obtain ⟨r, hr⟩ := mapM_ok_of_forall each
  exact ⟨_, bind_ok_iff.2 ⟨r, hr, rfl⟩⟩

/-- With every key in place the graph is built without raising. -/
theorem exists_built {ty : MetaValue} (hu : HasVersion device u)
    (hty : device.lookup metaDeviceType = some ty) (hp : ∀ p ∈ packages, Carries p) :
    ∃ G, Built device packages u G := by
  have nodes : ∀ p ∈ packages, ∃ r, versionNode device p = .ok r := by
    intro p hmem
    obtain ⟨v, hv⟩ := (hp p hmem).version
    obtain ⟨ty', hty'⟩ := (hp p hmem).devType
    by_cases heq : ty = ty'
    · exact ⟨_, versionNode_some_iff.2 ⟨hv, ty, hty, heq ▸ hty'⟩⟩
    · refine ⟨none, bind_ok_iff.2 ⟨ty', getItem_ok_iff.2 hty', bind_ok_iff.2
        ⟨ty, getItem_ok_iff.2 hty, ?_⟩⟩⟩
      simp [Ne.symm heq, pure, Except.pure]
  obtain ⟨vs, hvs⟩ := mapM_ok_of_forall nodes
  obtain ⟨ds, hds⟩ := edgesFrom_ok_of_carries hu hty hp
  have bases : ∀ b ∈ packages, ∃ es, edgesFrom packages b.info = .ok es := by
    intro b hb
    obtain ⟨v, hv⟩ := (hp b hb).version
    obtain ⟨ty', hty'⟩ := (hp b hb).devType
    exact edgesFrom_ok_of_carries hv hty' hp
  obtain ⟨ps, hps⟩ := mapM_ok_of_forall bases
  exact ⟨_, _, bind_ok_iff.2 ⟨vs, hvs, rfl⟩, bind_ok_iff.2 ⟨ds, hds, bind_ok_iff.2 ⟨ps, hps, rfl⟩⟩⟩

/-- A graph that was built has read the keys of the device and of every package. -/
theorem Built.carries (h : Built device packages u G) {p : PackageInfo} (hp : p ∈ packages) :
    Carries p ∧ ∃ ty, device.lookup metaDeviceType = some ty := by
  obtain ⟨G₀, -, hG⟩ := h
  obtain ⟨ds, hds, -⟩ := bind_ok_iff.1 hG
  obtain ⟨os, hos, -⟩ := bind_ok_iff.1 hds
  obtain ⟨i, hi⟩ := List.getElem?_of_mem hp
  obtain ⟨o, -, ho⟩ := exists_of_mapM_ok hos (List.mk_mem_zipIdx_iff_getElem?.2 hi)
  obtain ⟨r, hr, -⟩ := bind_ok_iff.1 ho
  obtain ⟨b, x, ty, ty', -, hx, hty, hty', -⟩ := requirementsSatisfied_ok hr
  exact ⟨⟨p.hasVersion_of_lookup hx, ty', hty'⟩, ty, hty⟩

/-- `resolve` on a known target is the search of the graph. -/
theorem resolve_eq (hu : HasVersion device u) (ht : policy.evaluate device = some t)
    (hk : Known device packages u t) (hG : Built device packages u G) :
    resolve shortestPath device packages policy =
      match shortestPath G u t with
      | none => .ok none
      | some sp => do
        let edgePath ← (sp.zip sp.tail).mapM (hopPackage G)
        return edgePath.head? := by
  obtain ⟨G₀, h₀, hG⟩ := hG
  have hmem : G₀.hasNode t = true := by
    simpa [MultiDiGraph.hasNode] using ((versionGraph_ok h₀).2 t).2 hk
  unfold resolve
  rw [getItem_ok_iff.2 hu]
  simp only [bind, Except.bind, ht, asNode, h₀, hmem, Bool.not_true, Bool.false_eq_true,
    ↓reduceIte, hG]
  cases shortestPath G u t <;> rfl

/-- A resolution that returns an index searched the graph for a known target. -/
theorem resolve_some_inv {i : Nat}
    (h : resolve shortestPath device packages policy = .ok (some i)) :
    ∃ u t G, HasVersion device u ∧ policy.evaluate device = some t ∧ Known device packages u t ∧
      Built device packages u G := by
  unfold resolve at h
  obtain ⟨x, hx, hp⟩ := bind_ok_iff.1 h
  cases ht : policy.evaluate device with
  | none => simp [ht, pure, Except.pure] at hp
  | some t =>
    simp only [ht] at hp
    obtain ⟨u, hu, hv⟩ := bind_ok_iff.1 hp
    obtain ⟨G₀, h₀, hn⟩ := bind_ok_iff.1 hv
    rw [asNode_ok_iff] at hu
    subst hu
    cases hmem : G₀.hasNode t with
    | false => simp [hmem, pure, Except.pure] at hn
    | true =>
      simp only [hmem, Bool.not_true, Bool.false_eq_true, ↓reduceIte] at hn
      obtain ⟨G, hG, -⟩ := bind_ok_iff.1 hn
      have hk : Known device packages u t := by
        rw [← (versionGraph_ok h₀).2 t]
        simpa [MultiDiGraph.hasNode] using hmem
      exact ⟨u, t, G, getItem_ok_iff.1 hx, rfl, hk, G₀, h₀, hG⟩

theorem zip_tail_mem_adj {R : String → String → Prop} {p : List String} (h : p.IsChain R) :
    ∀ hop ∈ p.zip p.tail, R hop.1 hop.2 := by
  induction p with
  | nil => simp
  | cons a p ih =>
    cases p with
    | nil => simp
    | cons b p =>
      obtain ⟨hab, hb⟩ := List.isChain_cons_cons.1 h
      intro hop hm
      simp only [List.tail_cons, List.zip_cons_cons, List.mem_cons] at hm
      rcases hm with rfl | hm
      · exact hab
      · exact ih hb hop hm

/-- What `resolve` returns for a path the routine found: nothing at the target itself, and
otherwise the package of the path's first hop. -/
theorem resolve_of_path (hu : HasVersion device u) (ht : policy.evaluate device = some t)
    (hk : Known device packages u t) (hG : Built device packages u G) {p : List String}
    (hp : shortestPath G u t = some p) (hw : Walk G.Adj u t p) :
    (u = t ∧ p = [u] ∧ resolve shortestPath device packages policy = .ok none) ∨
      ∃ v q i, p = u :: v :: q ∧ hopPackage G (u, v) = .ok i ∧
        resolve shortestPath device packages policy = .ok (some i) := by
  rw [resolve_eq hu ht hk hG, hp]
  obtain ⟨rfl, rfl⟩ | ⟨v, q, huv, -, rfl⟩ := hw.cases_cons
  · exact .inl ⟨rfl, rfl, rfl⟩
  · obtain ⟨i, -, hi, -⟩ := hG.hopPackage_ok huv
    have hops : ∀ hop ∈ (u :: v :: q).zip (v :: q), ∃ j, hopPackage G hop = .ok j := by
      intro hop hm
      obtain ⟨j, -, hj, -⟩ := hG.hopPackage_ok (zip_tail_mem_adj hw.chain hop hm)
      exact ⟨j, hj⟩
    obtain ⟨r, hr⟩ := mapM_ok_of_forall hops
    have hr₂ := mapM_ok_iff.1 hr
    rw [List.zip_cons_cons] at hr₂
    obtain ⟨j, js, hj, -, rfl⟩ := List.forall₂_cons_left_iff.1 hr₂
    rw [hi, Except.ok.injEq] at hj
    subst hj
    exact .inr ⟨v, q, i, rfl, hi, bind_ok_iff.2 ⟨_, hr, rfl⟩⟩

/-- A returned index, read back: the geodesic the search found, and the package of its first
hop. -/
theorem resolve_ok_some (hsp : ShortestPath shortestPath) {i : Nat}
    (h : resolve shortestPath device packages policy = .ok (some i)) :
    ∃ u t G v q, HasVersion device u ∧ policy.evaluate device = some t ∧
      Known device packages u t ∧ Built device packages u G ∧
      Geodesic (Hop device packages) u t (u :: v :: q) ∧ hopPackage G (u, v) = .ok i := by
  obtain ⟨u, t, G, hu, ht, hk, hG⟩ := resolve_some_inv h
  have hun : u ∈ G.nodes := hG.mem_nodes (.inl rfl)
  have htn : t ∈ G.nodes := hG.mem_nodes hk
  cases hp : shortestPath G u t with
  | none =>
    rw [resolve_eq hu ht hk hG, hp] at h
    simp at h
  | some p =>
    have hgeo := hsp.geodesic hG.cost_one hun htn hp
    obtain ⟨-, -, hn⟩ | ⟨v, q, j, rfl, hj, hs⟩ := resolve_of_path hu ht hk hG hp hgeo.walk
    · rw [hn] at h
      simp at h
    · rw [hs] at h
      simp only [Except.ok.injEq, Option.some.injEq] at h
      subst h
      rw [hG.adj_eq] at hgeo
      exact ⟨u, t, G, v, q, hu, ht, hk, hG, hgeo, hj⟩

end Rdfm.Server
