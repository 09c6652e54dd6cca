import Rdfm.Server.ResolverSound

/-!
# Repeated resolution reaches the target

A device that keeps installing what `resolve` returns, and reports afterwards the package's version
and its own type but otherwise anything, moves from graph to graph: the device's own edges change
with its metadata. What survives is the rest of the path. A geodesic never returns to its source,
so behind its first hop it uses package edges only, which every later graph has too
(`UpdateStep.geodesic`). The distance to the target therefore falls at every step, and the version
just left is farther from the target along package edges than any later one, so it is not seen
again.
-/

namespace Rdfm.Server

open Rdfm.Lib

variable {packages : List PackageInfo} {t : String} {d d' : Metadata} {ds : List Metadata}

/-- One update towards `t`: the device installs the package `resolve` returned and then reports its
version and the same device type. -/
def UpdateStep (packages : List PackageInfo) (t : String) (d d' : Metadata) : Prop :=
  ∃ shortestPath, ShortestPath shortestPath ∧ ∃ i p v ty,
    resolve shortestPath d packages (exactMatch t) = .ok (some i) ∧ packages[i]? = some p ∧
    HasVersion p.info v ∧ HasVersion d' v ∧
    d.lookup metaDeviceType = some ty ∧ d'.lookup metaDeviceType = some ty

/-- The number of hops of a shortest path from the device's version to `t` in the graph `resolve`
builds. -/
def PathLength (packages : List PackageInfo) (t : String) (d : Metadata) (n : Nat) : Prop :=
  ∃ u G p, HasVersion d u ∧ Built d packages u G ∧ Geodesic G.Adj u t p ∧ p.length = n + 1

theorem PathLength.unique {n m : Nat} (hn : PathLength packages t d n)
    (hm : PathLength packages t d m) : n = m := by
  obtain ⟨u, G, p, hu, hG, hp, hl⟩ := hn
  obtain ⟨u', G', p', hu', hG', hp', hl'⟩ := hm
  obtain rfl := hu.unique hu'
  rw [hG.adj_eq] at hp
  rw [hG'.adj_eq] at hp'
  have := hp.length_eq hp'
  omega

/-! ## One step -/

/-- Behind the first hop a geodesic runs along package edges. -/
theorem walk_packageHop_of_geodesic {u v : String} {q : List String} (hu : HasVersion d u)
    (h : Geodesic (Hop d packages) u t (u :: v :: q)) :
    Walk (PackageHop packages) v t (v :: q) := by
  refine ⟨h.tail.walk.head, h.tail.walk.last, h.tail.walk.chain.imp_of_mem_imp ?_⟩
  intro a b ha _ hab
  rcases hab with ⟨hd, -⟩ | hab
  · obtain rfl := hu.unique hd
    exact absurd ha h.not_mem_tail
  · exact hab

theorem hop_of_packageHop {a b : String} (h : PackageHop packages a b) : Hop d packages a b := .inr h

/-- A step, read as the geodesic it follows; what is left of it needs no device edge. -/
theorem UpdateStep.geodesic (h : UpdateStep packages t d d') :
    ∃ u v q ty, HasVersion d u ∧ HasVersion d' v ∧ d.lookup metaDeviceType = some ty ∧
      d'.lookup metaDeviceType = some ty ∧ (∀ p ∈ packages, Carries p) ∧
      Known d packages u t ∧ Geodesic (Hop d packages) u t (u :: v :: q) ∧
      Walk (PackageHop packages) v t (v :: q) := by
  obtain ⟨sp, hsp, i, p, v, ty, hr, hp, hpv, hv, hty, hty'⟩ := h
  obtain ⟨u, t', G, w, q, hu, ht, hk, hG, hgeo, hi⟩ := resolve_ok_some hsp hr
  obtain rfl : t = t' := by simpa [exactMatch] using ht
  have hadj : G.Adj u w := hG.adj_iff.2 (List.isChain_cons_cons.1 hgeo.walk.chain).1
  obtain ⟨j, p', hj, hp', hw⟩ := hG.hopPackage_ok hadj
  rw [hi, Except.ok.injEq] at hj
  subst hj
  rw [hp, Option.some.injEq] at hp'
  subst hp'
  obtain rfl := hpv.unique hw
  exact ⟨u, v, q, ty, hu, hv, hty, hty', fun _ hm => (hG.carries hm).1, hk, hgeo,
    walk_packageHop_of_geodesic hu hgeo⟩

/-- The target stays known: it is not the version just left. -/
theorem known_of_step {u v : String} {q : List String} {ty : MetaValue}
    (hty : d.lookup metaDeviceType = some ty) (hty' : d'.lookup metaDeviceType = some ty)
    (hk : Known d packages u t) (hgeo : Geodesic (Hop d packages) u t (u :: v :: q)) :
    Known d' packages v t := by
  rcases hk with rfl | ⟨p, hp, hpt, ty₀, hd, hpty⟩
  · have := hgeo.minimal _ (.single _ t)
    simp at this
  · rw [hty, Option.some.injEq] at hd
    subst hd
    exact .inr ⟨p, hp, hpt, ty, hty', hpty⟩

theorem UpdateStep.pathLength_lt (h : UpdateStep packages t d d') :
    ∃ n m, PathLength packages t d n ∧ PathLength packages t d' m ∧ m < n := by
  obtain ⟨u, v, q, ty, hu, hv, hty, hty', hc, hk, hgeo, hw⟩ := h.geodesic
  obtain ⟨G, hG⟩ := exists_built hu hty hc
  obtain ⟨G', hG'⟩ := exists_built hv hty' hc
  have hw' : Walk (Hop d' packages) v t (v :: q) := hw.mono fun _ _ => hop_of_packageHop
  obtain ⟨p', hp'⟩ := hw'.exists_geodesic
  have hle := hp'.minimal _ hw'
  have hpos := List.length_pos_of_ne_nil hp'.walk.ne_nil
  refine ⟨q.length + 1, p'.length - 1, ⟨u, G, _, hu, hG, hG.adj_eq ▸ hgeo, by simp⟩,
    ⟨v, G', p', hv, hG', hG'.adj_eq ▸ hp', by omega⟩, ?_⟩
  simp only [List.length_cons] at hle
  omega

/-! ## Whole runs -/

/-- The device is within `n` nodes of the target along package edges. -/
def Within (packages : List PackageInfo) (t : String) (n : Nat) (d : Metadata) : Prop :=
  ∃ v p, HasVersion d v ∧ Walk (PackageHop packages) v t p ∧ p.length ≤ n

/-- Every device after the first is within the rest of the first geodesic. -/
theorem within_of_run (hrun : (d :: ds).IsChain (UpdateStep packages t)) {u : String}
    {p : List String} (hu : HasVersion d u) (hgeo : Geodesic (Hop d packages) u t p) :
    ∀ d' ∈ ds, Within packages t (p.length - 1) d' := by
  induction ds generalizing d u p with
  | nil => intro d' hd'; cases hd'
  | cons d₁ ds ih =>
    obtain ⟨hstep, hrest⟩ := List.isChain_cons_cons.1 hrun
    obtain ⟨u', v, q, -, hu', hv, -, -, -, -, hgeo', hw⟩ := hstep.geodesic
    obtain rfl := hu.unique hu'
    have hlen := hgeo.length_eq hgeo'
    have hw₁ : Walk (Hop d₁ packages) v t (v :: q) := hw.mono fun _ _ => hop_of_packageHop
    obtain ⟨p₁, hp₁⟩ := hw₁.exists_geodesic
    have hle := hp₁.minimal _ hw₁
    simp only [List.length_cons] at hlen hle
    intro d' hd'
    rcases List.mem_cons.1 hd' with rfl | hd'
    · exact ⟨v, _, hv, hw, by simp only [List.length_cons]; omega⟩
    · obtain ⟨w, r, hr, hwr, hlr⟩ := ih hrest hv hp₁ d' hd'
      exact ⟨w, r, hr, hwr, by omega⟩

/-- No version is visited twice in a run. -/
theorem versions_distinct (hrun : (d :: ds).IsChain (UpdateStep packages t)) :
    (d :: ds).Pairwise fun a b => ∀ u v, HasVersion a u → HasVersion b v → u ≠ v := by
  induction ds generalizing d with
  | nil => simp
  | cons d₁ ds ih =>
    obtain ⟨hstep, hrest⟩ := List.isChain_cons_cons.1 hrun
    refine List.pairwise_cons.2 ⟨?_, ih hrest⟩
    obtain ⟨u, v, q, -, hu, -, -, -, -, -, hgeo, -⟩ := hstep.geodesic
    intro d' hd' a b ha hb hab
    subst hab
    obtain rfl := hu.unique ha
    obtain ⟨w, p, hw, hwalk, hlen⟩ := within_of_run hrun hu hgeo d' hd'
    obtain rfl := hb.unique hw
    -- a way back to the target from the first version is as long as the geodesic it left by
    have := hgeo.minimal p (hwalk.mono fun _ _ => hop_of_packageHop)
    simp only [List.length_cons] at this hlen
    omega

/-- Each update of a run takes at least one hop off the distance. -/
theorem run_pathLength (hrun : (d :: ds).IsChain (UpdateStep packages t)) {n : Nat}
    (hn : PathLength packages t d n) :
    ∃ m, PathLength packages t ((d :: ds).getLast (List.cons_ne_nil d ds)) m ∧
      m + ds.length ≤ n := by
  induction ds generalizing d n with
  | nil => exact ⟨n, hn, by simp⟩
  | cons d₁ ds ih =>
    obtain ⟨hstep, hrest⟩ := List.isChain_cons_cons.1 hrun
    obtain ⟨n', m, hn', hm, hlt⟩ := hstep.pathLength_lt
    obtain rfl := hn.unique hn'
    obtain ⟨k, hk, hle⟩ := ih hrest hm
    exact ⟨k, by simpa using hk, by simp only [List.length_cons]; omega⟩

theorem PathLength.at_target (h : PathLength packages t d 0) : HasVersion d t := by
  obtain ⟨u, G, p, hu, -, hgeo, hlen⟩ := h
  obtain ⟨rfl, -⟩ | ⟨v, q, -, -, rfl⟩ := hgeo.walk.cases_cons
  · exact hu
  · simp at hlen

/-- The device can still get to the target: it and every package have their keys, the target is
known, and some path leads there. -/
def OnCourse (packages : List PackageInfo) (t : String) (d : Metadata) : Prop :=
  ∃ u G p ty, HasVersion d u ∧ d.lookup metaDeviceType = some ty ∧ Known d packages u t ∧
    Built d packages u G ∧ Walk G.Adj u t p

theorem UpdateStep.onCourse (h : UpdateStep packages t d d') : OnCourse packages t d' := by
  obtain ⟨u, v, q, ty, hu, hv, hty, hty', hc, hk, hgeo, hw⟩ := h.geodesic
  obtain ⟨G, hG⟩ := exists_built hv hty' hc
  refine ⟨v, G, v :: q, ty, hv, hty', known_of_step hty hty' hk hgeo, hG, ?_⟩
  rw [hG.adj_eq]
  exact hw.mono fun _ _ => hop_of_packageHop

theorem onCourse_last (hstart : OnCourse packages t d)
    (hrun : (d :: ds).IsChain (UpdateStep packages t)) :
    OnCourse packages t ((d :: ds).getLast (List.cons_ne_nil d ds)) := by
  induction ds generalizing d with
  | nil => exact hstart
  | cons d₁ ds ih =>
    obtain ⟨hstep, hrest⟩ := List.isChain_cons_cons.1 hrun
    exact ih hstep.onCourse hrest

/-- At the target, with the keys in place, `resolve` has nothing to offer. -/
theorem resolve_at_target {shortestPath : PackageGraph → String → String → Option (List String)}
    (hsp : ShortestPath shortestPath) {ty : MetaValue} (ht : HasVersion d t)
    (hty : d.lookup metaDeviceType = some ty) (hc : ∀ p ∈ packages, Carries p) :
    resolve shortestPath d packages (exactMatch t) = .ok none := by
  obtain ⟨G, hG⟩ := exists_built ht hty hc
  have htn : t ∈ G.nodes := hG.mem_nodes (.inl rfl)
  cases hp : shortestPath G t t with
  | none => exact absurd (.single G.Adj t) (hsp.noPath htn htn hp)
  | some p =>
    have hgeo := hsp.geodesic hG.cost_one htn htn hp
    obtain ⟨-, -, hr⟩ | ⟨v, q, i, rfl, -, -⟩ :=
      resolve_of_path ht (exactMatch_evaluate t d) (.inl rfl) hG hp hgeo.walk
    · exact hr
    · have := hgeo.minimal _ (.single G.Adj t)
      simp at this

/-- Away from the target, a device on course is offered a package. -/
theorem OnCourse.resolve_some
    {shortestPath : PackageGraph → String → String → Option (List String)}
    (hsp : ShortestPath shortestPath) (h : OnCourse packages t d) (hne : ¬ HasVersion d t) :
    ∃ i, resolve shortestPath d packages (exactMatch t) = .ok (some i) := by
  obtain ⟨u, G, p, ty, hu, -, hk, hG, hw⟩ := h
  have hun : u ∈ G.nodes := hG.mem_nodes (.inl rfl)
  have htn : t ∈ G.nodes := hG.mem_nodes hk
  cases hp : shortestPath G u t with
  | none => exact absurd hw (hsp.noPath hun htn hp)
  | some p' =>
    obtain ⟨rfl, -, -⟩ | ⟨v, q, i, -, -, hr⟩ :=
      resolve_of_path hu (exactMatch_evaluate t d) hk hG hp (hsp.walk hun htn hp)
    · exact absurd hu hne
    · exact ⟨i, hr⟩

theorem OnCourse.pathLength (h : OnCourse packages t d) : ∃ n, PathLength packages t d n := by
  obtain ⟨u, G, p, -, hu, -, -, hG, hw⟩ := h
  obtain ⟨q, hq⟩ := hw.exists_geodesic
  have := List.length_pos_of_ne_nil hq.walk.ne_nil
  exact ⟨q.length - 1, u, G, q, hu, hG, hq, by omega⟩

/-- A device that is offered a package is on course, and every package has its keys. -/
theorem onCourse_of_resolve {shortestPath : PackageGraph → String → String → Option (List String)}
    (hsp : ShortestPath shortestPath) {i : Nat}
    (h : resolve shortestPath d packages (exactMatch t) = .ok (some i)) :
    OnCourse packages t d ∧ ∀ p ∈ packages, Carries p := by
  obtain ⟨u, t', G, v, q, hu, ht, hk, hG, hgeo, hi⟩ := resolve_ok_some hsp h
  rw [exactMatch_evaluate, Option.some.injEq] at ht
  subst ht
  have hadj : G.Adj u v := hG.adj_iff.2 (List.isChain_cons_cons.1 hgeo.walk.chain).1
  obtain ⟨_, p, -, hp, -⟩ := hG.hopPackage_ok hadj
  obtain ⟨-, ty, hty⟩ := hG.carries (List.mem_of_getElem? hp)
  exact ⟨⟨u, G, _, ty, hu, hty, hk, hG, hG.adj_eq ▸ hgeo.walk⟩, fun _ hm => (hG.carries hm).1⟩

/-- **Convergence of `resolve`.** Along every run of updates from a device that is offered a package
the distance to the target falls at each step, no version comes back, and after at most the initial
distance many updates the device runs the target, where nothing more is offered. Until then there
always is a next package. -/
theorem resolve_converges
    (hstart : ∃ shortestPath i, ShortestPath shortestPath ∧
      resolve shortestPath d packages (exactMatch t) = .ok (some i))
    (hrun : (d :: ds).IsChain (UpdateStep packages t)) :
    (d :: ds).IsChain (fun a b => ∃ n m, PathLength packages t a n ∧ PathLength packages t b m ∧
      m < n) ∧
    (d :: ds).Pairwise (fun a b => ∀ u v, HasVersion a u → HasVersion b v → u ≠ v) ∧
    (∃ n, PathLength packages t d n ∧ ds.length ≤ n ∧
      (ds.length = n → HasVersion ((d :: ds).getLast (List.cons_ne_nil d ds)) t)) ∧
    (∀ shortestPath, ShortestPath shortestPath →
      ¬ HasVersion ((d :: ds).getLast (List.cons_ne_nil d ds)) t →
      ∃ i, resolve shortestPath ((d :: ds).getLast (List.cons_ne_nil d ds)) packages
        (exactMatch t) = .ok (some i)) ∧
    (∀ shortestPath, ShortestPath shortestPath → ∀ d', HasVersion d' t →
      d'.lookup metaDeviceType =
        ((d :: ds).getLast (List.cons_ne_nil d ds)).lookup metaDeviceType →
      resolve shortestPath d' packages (exactMatch t) = .ok none) := by
  obtain ⟨sp, i, hsp, hr⟩ := hstart
  obtain ⟨hcourse, hcarry⟩ := onCourse_of_resolve hsp hr
  have hlast := onCourse_last hcourse hrun
  refine ⟨hrun.imp fun _ _ h => UpdateStep.pathLength_lt h, versions_distinct hrun, ?_, ?_, ?_⟩
  · obtain ⟨n, hn⟩ := hcourse.pathLength
    obtain ⟨m, hm, hle⟩ := run_pathLength hrun hn
    refine ⟨n, hn, by omega, fun hlen => ?_⟩
    obtain rfl : m = 0 := by omega
    exact hm.at_target
  · intro sp' hsp' hne
    exact hlast.resolve_some hsp' hne
  · intro sp' hsp' d' ht hty
    obtain ⟨-, -, -, ty, -, hty₀, -⟩ := hlast
    exact resolve_at_target hsp' ht (hty.trans hty₀) hcarry

/-- Two packages in a row: the device climbs from `v0` over `v1` to `v2`, and picks up a key on the
way. -/
def ladder : List PackageInfo :=
  [.ofItems [(metaSoftVer, "v1"), (metaDeviceType, "rpi")],
    .ofItems [(metaSoftVer, "v2"), (metaDeviceType, "rpi"), ("requires:" ++ metaSoftVer, "v1")]]

def ladderDevice (version slot : String) : Metadata :=
  (PackageInfo.ofItems [(metaSoftVer, version), (metaDeviceType, "rpi"), ("slot", slot)]).info

theorem ladder_converges :
    let ds := [ladderDevice "v1" "b", ladderDevice "v2" "a"]
    (ladderDevice "v0" "a" :: ds).IsChain (UpdateStep ladder "v2") ∧
      ∃ n, PathLength ladder "v2" (ladderDevice "v0" "a") n ∧ ds.length ≤ n := by
  have hstart : resolve MultiDiGraph.shortestPath (ladderDevice "v0" "a") ladder
      (exactMatch "v2") = .ok (some 0) := by decide
  have h₀ : UpdateStep ladder "v2" (ladderDevice "v0" "a") (ladderDevice "v1" "b") :=
    ⟨_, shortestPath_search, 0, _, "v1", .str "rpi", hstart, rfl, by decide, by decide, by decide,
      by decide⟩
  have h₁ : UpdateStep ladder "v2" (ladderDevice "v1" "b") (ladderDevice "v2" "a") :=
    ⟨_, shortestPath_search, 1, _, "v2", .str "rpi", by decide, rfl, by decide, by decide,
      by decide, by decide⟩
  have hrun : [ladderDevice "v0" "a", ladderDevice "v1" "b", ladderDevice "v2" "a"].IsChain
      (UpdateStep ladder "v2") := .cons_cons h₀ (.cons_cons h₁ (.singleton _))
  obtain ⟨-, -, ⟨n, hn, hle, -⟩, -, -⟩ :=
    resolve_converges ⟨_, 0, shortestPath_search, hstart⟩ hrun
  exact ⟨hrun, n, hn, hle⟩

end Rdfm.Server
