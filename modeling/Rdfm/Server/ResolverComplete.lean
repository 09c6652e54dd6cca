import Rdfm.Server.ResolverSound

/-!
# The resolver finds what there is

A chain of packages, each installable on the one before and the first on the device, is a walk
between versions in the graph of `resolve`. So for a target that such a chain leads to, `resolve`
returns a package, on a path with no more hops than the chain (`resolve_complete`). Among the
packages with the version of the first hop it returns the first that the device can install: the
edges of the device were added first, and in the order of the packages.
-/

namespace Rdfm.Server

open Rdfm.Lib

variable {device base : Metadata} {packages : List PackageInfo} {t u v : String}

/-! ## Chains of packages -/

/-- Packages for the device's type, each installable on the one before, that lead from the device to
a version. -/
structure InstallChain (device : Metadata) (packages : List PackageInfo) (t : String)
    (chain : List PackageInfo) : Prop where
  members : ∀ p ∈ chain, p ∈ packages
  devType : ∀ p ∈ chain, p.info.lookup metaDeviceType = device.lookup metaDeviceType
  first : ∃ p, chain.head? = some p ∧ requirementsSatisfied device p.info = .ok true
  steps : chain.IsChain fun b p => requirementsSatisfied b.info p.info = .ok true
  last : ∃ p, chain.getLast? = some p ∧ HasVersion p.info t

/-- Packages installed one after another are hops between their versions. -/
theorem walk_of_chain {p : PackageInfo} {chain : List PackageInfo}
    (hmembers : ∀ q ∈ p :: chain, q ∈ packages) (hcarry : ∀ q ∈ packages, Carries q)
    (hsteps : (p :: chain).IsChain fun b q => requirementsSatisfied b.info q.info = .ok true)
    (hlast : ∃ q, (p :: chain).getLast? = some q ∧ HasVersion q.info t)
    (hv : HasVersion p.info v) :
    ∃ path, Walk (Hop device packages) v t path ∧ path.length = (p :: chain).length := by
  induction chain generalizing p v with
  | nil =>
    obtain ⟨q, hq, ht⟩ := hlast
    cases hq
    obtain rfl := hv.unique ht
    exact ⟨[v], .single _ v, rfl⟩
  | cons q chain ih =>
    obtain ⟨hstep, hrest⟩ := List.isChain_cons_cons.1 hsteps
    have hq := hmembers q (List.mem_cons_of_mem _ List.mem_cons_self)
    obtain ⟨w, hw⟩ := (hcarry q hq).version
    obtain ⟨path, hpath, hlength⟩ := ih (fun r hr => hmembers r (List.mem_cons_of_mem _ hr)) hrest
      (by simpa using hlast) hw
    have hhop : Hop device packages v w :=
      .inr ⟨p, hmembers p List.mem_cons_self, q, hq, requirementsSatisfied_iff.1 hstep, hv, hw⟩
    exact ⟨v :: path, hpath.cons hhop, by simp [hlength]⟩

/-- A chain is a walk from the device's version, with a hop for each package. -/
theorem InstallChain.walk {chain : List PackageInfo} (h : InstallChain device packages t chain)
    (hcarry : ∀ q ∈ packages, Carries q) (hu : HasVersion device u) :
    ∃ path, Walk (Hop device packages) u t path ∧ path.length = chain.length + 1 := by
  obtain ⟨p, hp, hfirst⟩ := h.first
  obtain ⟨chain, rfl⟩ := List.head?_eq_some_iff.mp hp
  have hmem := h.members p List.mem_cons_self
  obtain ⟨v, hv⟩ := (hcarry p hmem).version
  obtain ⟨path, hpath, hlength⟩ := walk_of_chain h.members hcarry h.steps h.last hv
  have hhop : Hop device packages u v :=
    .inl ⟨hu, p, hmem, requirementsSatisfied_iff.1 hfirst, hv⟩
  exact ⟨u :: path, hpath.cons hhop, by simp [hlength]⟩

/-- The end of a chain is a version that the graph has. -/
theorem InstallChain.known {chain : List PackageInfo} (h : InstallChain device packages t chain) :
    Known device packages u t ∧ ∃ ty, device.lookup metaDeviceType = some ty := by
  obtain ⟨p, hp, hfirst⟩ := h.first
  obtain ⟨ty, hty, -⟩ := (requirementsSatisfied_iff.1 hfirst).devType
  obtain ⟨q, hq, hversion⟩ := h.last
  have hmem := List.mem_of_getLast? hq
  exact ⟨.inr ⟨q, h.members q hmem, hversion, ty, hty, (h.devType q hmem).trans hty⟩, ty, hty⟩

/-! ## The first of parallel edges -/

theorem pairwise_candidateEdges {targets : List (PackageInfo × Nat)}
    {os : List (Option (Edge String Nat))} (hindices : targets.Pairwise fun a b => a.2 < b.2)
    (hos : targets.mapM (candidateEdge base) = .ok os) :
    os.reduceOption.Pairwise fun e e' => e.data < e'.data := by
  induction targets generalizing os with
  | nil =>
    cases hos
    exact .nil
  | cons a targets ih =>
    rw [List.mapM_cons] at hos
    obtain ⟨o, ho, hos⟩ := bind_ok_iff.1 hos
    obtain ⟨rest, hrest, hos⟩ := bind_ok_iff.1 hos
    cases hos
    obtain ⟨hlt, hindices⟩ := List.pairwise_cons.mp hindices
    cases o with
    | none =>
      rw [List.reduceOption_cons_of_none]
      exact ih hindices hrest
    | some e =>
      rw [List.reduceOption_cons_of_some]
      refine List.pairwise_cons.mpr ⟨fun e' he' => ?_, ih hindices hrest⟩
      rw [List.reduceOption_mem_iff, mem_of_mapM_ok hrest] at he'
      obtain ⟨b, hb, hbe⟩ := he'
      obtain ⟨-, -, -, -, hdata⟩ := candidateEdge_some_iff.1 ho
      obtain ⟨-, -, -, -, hdata'⟩ := candidateEdge_some_iff.1 hbe
      rw [hdata, hdata']
      exact hlt b hb

/-- Edges are added in the order of the packages. -/
theorem edgesFrom_pairwise {es : List (Edge String Nat)} (h : edgesFrom packages base = .ok es) :
    es.Pairwise fun e e' => e.data < e'.data := by
  obtain ⟨os, hos, h⟩ := bind_ok_iff.1 h
  cases h
  refine pairwise_candidateEdges ?_ hos
  have hrange : (packages.zipIdx.map Prod.snd).Pairwise (· < ·) := by
    rw [List.zipIdx_map_snd]
    exact List.pairwise_lt_range'
  exact List.pairwise_map.mp hrange

/-- A hop that the device can make is taken with the first package that it can install for it. -/
theorem Built.hopPackage_least {G : PackageGraph} (h : Built device packages u G)
    (hu : HasVersion device u) {i j : Nat} {p : PackageInfo} (hi : hopPackage G (u, v) = .ok i)
    (hj : packages[j]? = some p) (hinst : Installable device p.info)
    (hv : HasVersion p.info v) : i ≤ j := by
  rw [h.hopPackage_eq] at hi
  obtain ⟨G₀, h₀, hG⟩ := h
  obtain ⟨ds, hds, hG⟩ := bind_ok_iff.1 hG
  obtain ⟨ps, -, hG⟩ := bind_ok_iff.1 hG
  cases hG
  rw [foldl_addEdge_edges, (versionGraph_ok h₀).1, List.nil_append, List.filter_append,
    List.head?_append] at hi
  have hmem : (⟨u, v, 1, j⟩ : Edge String Nat) ∈
      ds.filter fun e => decide (e.src = u) && decide (e.dst = v) :=
    List.mem_filter.mpr ⟨(mem_edgesFrom hds).2 ⟨p, hj, hinst, hu, hv, rfl⟩, by simp⟩
  have hsorted := (edgesFrom_pairwise hds).filter fun e =>
    decide (e.src = u) && decide (e.dst = v)
  cases hf : ds.filter fun e => decide (e.src = u) && decide (e.dst = v) with
  | nil =>
    rw [hf] at hmem
    cases hmem
  | cons e rest =>
    rw [hf] at hi hmem hsorted
    cases hi
    rcases List.mem_cons.mp hmem with heq | hmem
    · rw [← heq]
    · exact Nat.le_of_lt ((List.pairwise_cons.mp hsorted).1 _ hmem)

/-! ## Completeness -/

/-- The search succeeds for the end of every chain. -/
theorem InstallChain.resolved
    {shortestPath : PackageGraph → String → String → Option (List String)}
    {chain : List PackageInfo} (h : InstallChain device packages t chain)
    (hsp : ShortestPath shortestPath) (hcarry : ∀ p ∈ packages, Carries p)
    (hu : HasVersion device u) (hne : u ≠ t) :
    ∃ G v q i p, Built device packages u G ∧ shortestPath G u t = some (u :: v :: q) ∧
      (v :: q).length ≤ chain.length ∧
      resolve shortestPath device packages (exactMatch t) = .ok (some i) ∧
      packages[i]? = some p ∧ HasVersion p.info v := by
  obtain ⟨hknown, ty, hty⟩ := h.known (u := u)
  obtain ⟨G, hG⟩ := exists_built hu hty hcarry
  obtain ⟨walk, hwalk, hlength⟩ := h.walk hcarry hu
  rw [← hG.adj_eq] at hwalk
  have hun : u ∈ G.nodes := hG.mem_nodes (.inl rfl)
  have htn : t ∈ G.nodes := hG.mem_nodes hknown
  cases hpath : shortestPath G u t with
  | none => exact absurd hwalk (hsp.noPath hun htn hpath)
  | some path =>
    have hgeo := hsp.geodesic hG.cost_one hun htn hpath
    have hle := hgeo.minimal walk hwalk
    obtain ⟨heq, -⟩ | ⟨v, q, i, rfl, hi, hresolve⟩ :=
      resolve_of_path hu (exactMatch_evaluate t device) hknown hG hpath hgeo.walk
    · exact absurd heq hne
    · have hadj : G.Adj u v := (List.isChain_cons_cons.1 hgeo.walk.chain).1
      obtain ⟨j, p, hj, hp, hversion⟩ := hG.hopPackage_ok hadj
      cases hi.symm.trans hj
      refine ⟨G, v, q, i, p, hG, hpath, ?_, hresolve, hp, hversion⟩
      rw [List.length_cons] at hle
      omega

/-- A resolution towards a version ends only for a device whose version can be a node. -/
theorem hasVersion_of_resolve_ok
    {shortestPath : PackageGraph → String → String → Option (List String)} {r : Option Nat}
    (h : resolve shortestPath device packages (exactMatch t) = .ok r) :
    ∃ u, HasVersion device u := by
  obtain ⟨x, hx, h⟩ := bind_ok_iff.1 h
  obtain ⟨u, hu, -⟩ := bind_ok_iff.1 h
  rw [asNode_ok_iff] at hu
  subst hu
  exact ⟨u, getItem_ok_iff.1 hx⟩

/-- **Completeness of `resolve`** for a device with a version other than the target. To the end of
every chain it finds a path, no longer than the chain, and returns a package for its first hop; if
it returns nothing there is no chain. The package is the first that the device can install for the
hop, if there is one. -/
theorem resolve_complete (shortestPath : PackageGraph → String → String → Option (List String))
    (hsp : ShortestPath shortestPath) (device : Metadata) (packages : List PackageInfo)
    (hcarry : ∀ p ∈ packages, Carries p) (t : String) (hne : ¬ HasVersion device t) :
    (∀ u chain, HasVersion device u → InstallChain device packages t chain →
      ∃ G v q i p, Built device packages u G ∧ shortestPath G u t = some (u :: v :: q) ∧
        (v :: q).length ≤ chain.length ∧
        resolve shortestPath device packages (exactMatch t) = .ok (some i) ∧
        packages[i]? = some p ∧ HasVersion p.info v) ∧
    (resolve shortestPath device packages (exactMatch t) = .ok none →
      ∀ chain, ¬ InstallChain device packages t chain) ∧
    ∀ i, resolve shortestPath device packages (exactMatch t) = .ok (some i) →
      ∃ p v, packages[i]? = some p ∧ HasVersion p.info v ∧
        ∀ j p', packages[j]? = some p' → HasVersion p'.info v →
          requirementsSatisfied device p'.info = .ok true →
            requirementsSatisfied device p.info = .ok true ∧ i ≤ j := by
  have hfound : ∀ u chain, HasVersion device u → InstallChain device packages t chain →
      ∃ G v q i p, Built device packages u G ∧ shortestPath G u t = some (u :: v :: q) ∧
        (v :: q).length ≤ chain.length ∧
        resolve shortestPath device packages (exactMatch t) = .ok (some i) ∧
        packages[i]? = some p ∧ HasVersion p.info v := by
    intro u chain hu hchain
    have hut : u ≠ t := by
      rintro rfl
      exact hne hu
    exact hchain.resolved hsp hcarry hu hut
  refine ⟨hfound, fun hnone chain hchain => ?_, fun i hi => ?_⟩
  · obtain ⟨u, hu⟩ := hasVersion_of_resolve_ok hnone
    obtain ⟨G, v, q, i, p, -, -, -, hsome, -⟩ := hfound u chain hu hchain
    rw [hnone] at hsome
    cases hsome
  · obtain ⟨u, t', G, v, q, hu, -, -, hG, hgeo, hhop⟩ := resolve_ok_some hsp hi
    have hadj : G.Adj u v := hG.adj_iff.2 (List.isChain_cons_cons.1 hgeo.walk.chain).1
    obtain ⟨i', p, hi', hp, hversion⟩ := hG.hopPackage_ok hadj
    cases hhop.symm.trans hi'
    refine ⟨p, v, hp, hversion, fun j p' hj hv hsat => ?_⟩
    have hinst := requirementsSatisfied_iff.1 hsat
    have hdevice : DeviceHop device packages v := ⟨p', List.mem_of_getElem? hj, hinst, hv⟩
    obtain ⟨p'', hp'', hown⟩ := hG.hopPackage_device hu hdevice hhop
    cases hp.symm.trans hp''
    exact ⟨requirementsSatisfied_iff.2 hown, hG.hopPackage_least hu hhop hj hinst hv⟩

/-- Two packages bring a device from `v1` to `v2` and one from there to `v3`. -/
def stagedPackages : List PackageInfo :=
  [.ofItems
      [(metaSoftVer, "v3"), (metaDeviceType, "rpi"), ("requires:rdfm.software.version", "v2")],
    .ofItems [(metaSoftVer, "v2"), (metaDeviceType, "rpi")],
    .ofItems [(metaSoftVer, "v2"), (metaDeviceType, "rpi"), ("mirror", "b")]]

def stagedDevice : Metadata :=
  (PackageInfo.ofItems [(metaSoftVer, "v1"), (metaDeviceType, "rpi")]).info

theorem stagedPackages_carry : ∀ p ∈ stagedPackages, Carries p := by
  intro p hp
  simp only [stagedPackages, List.mem_cons, List.not_mem_nil, or_false] at hp
  rcases hp with rfl | rfl | rfl
  · exact ⟨⟨"v3", by decide⟩, ⟨.str "rpi", by decide⟩⟩
  · exact ⟨⟨"v2", by decide⟩, ⟨.str "rpi", by decide⟩⟩
  · exact ⟨⟨"v2", by decide⟩, ⟨.str "rpi", by decide⟩⟩

theorem stagedDevice_chain :
    InstallChain stagedDevice stagedPackages "v3" [stagedPackages[2], stagedPackages[0]] where
  members := by simp
  devType := by
    intro p hp
    simp only [List.mem_cons, List.not_mem_nil, or_false] at hp
    rcases hp with rfl | rfl
    · decide
    · decide
  first := ⟨_, rfl, by decide⟩
  steps := List.isChain_pair.mpr (by decide)
  last := ⟨_, rfl, by decide⟩

theorem resolve_complete_staged :
    ShortestPath (MultiDiGraph.shortestPath : PackageGraph → _) ∧
      (∀ p ∈ stagedPackages, Carries p) ∧ ¬ HasVersion stagedDevice "v3" ∧
      resolve MultiDiGraph.shortestPath stagedDevice stagedPackages (exactMatch "v3") =
        .ok (some 1) ∧
      ∃ G v q i p, Built stagedDevice stagedPackages "v1" G ∧
        MultiDiGraph.shortestPath G "v1" "v3" = some ("v1" :: v :: q) ∧ (v :: q).length ≤ 2 ∧
        resolve MultiDiGraph.shortestPath stagedDevice stagedPackages (exactMatch "v3") =
          .ok (some i) ∧
        stagedPackages[i]? = some p ∧ HasVersion p.info v := by
  refine ⟨shortestPath_search, stagedPackages_carry, by decide, by decide, ?_⟩
  exact (resolve_complete _ shortestPath_search stagedDevice stagedPackages stagedPackages_carry
    "v3" (by decide)).1 "v1" _ (by decide) stagedDevice_chain

end Rdfm.Server
