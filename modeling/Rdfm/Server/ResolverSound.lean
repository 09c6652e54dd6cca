import Rdfm.Server.ResolverGraph

/-!
# When the resolver's choice is one the device can install

`resolve` looks for a path in a graph that merges the edges of the device with those of any package
that carries the device's version, whatever its type and its other metadata. The package of the
first hop is therefore the device's own choice only when the device itself can make that hop
(`Built.hopPackage_device`); otherwise it is a package some other base could install. The exact
condition is `DirectFirstHops`.
-/

namespace Rdfm.Server

open Rdfm.Lib

variable {device : Metadata} {packages : List PackageInfo} {policy : BasePolicy}

/-- The package at index `i` passes the check against the device: it is for the device's type, and
the device reports what each of its `requires:` clauses asks for. -/
structure SoundChoice (device : Metadata) (packages : List PackageInfo) (i : Nat) : Prop where
  satisfied : ∃ p, packages[i]? = some p ∧ requirementsSatisfied device p.info = .ok true ∧
    (∃ ty, device.lookup metaDeviceType = some ty ∧ p.info.lookup metaDeviceType = some ty) ∧
    ∀ k v, p.info.lookup k = some v → startsWith k requiresPrefix = true →
      device.lookup (removePrefix k requiresPrefix) = some v

theorem soundChoice_iff {i : Nat} : SoundChoice device packages i ↔
    ∃ p, packages[i]? = some p ∧ Installable device p.info := by
  constructor
  · rintro ⟨p, hp, hr, -⟩
    exact ⟨p, hp, requirementsSatisfied_iff.1 hr⟩
  · rintro ⟨p, hp, hi⟩
    exact ⟨p, hp, requirementsSatisfied_iff.2 hi, hi.devType, hi.clauses⟩

/-- Every shortest chain of hops from the device's version to the policy's target starts with a
version that some package installable on the device itself has. -/
def DirectFirstHops (device : Metadata) (packages : List PackageInfo) (policy : BasePolicy) :
    Prop :=
  ∀ u t ty, HasVersion device u → device.lookup metaDeviceType = some ty →
    policy.evaluate device = some t → Known device packages u t →
    ∀ v q, Geodesic (Hop device packages) u t (u :: v :: q) → DeviceHop device packages v

/-- A direct first hop is taken with an installable package. -/
theorem soundChoice_of_direct {u v : String} {G : PackageGraph} {i : Nat}
    (hG : Built device packages u G) (hu : HasVersion device u)
    (hi : hopPackage G (u, v) = .ok i) (hv : DeviceHop device packages v) :
    SoundChoice device packages i :=
  soundChoice_iff.2 (hG.hopPackage_device hu hv hi)

/-- A sound choice for a first hop makes the hop direct. -/
theorem direct_of_soundChoice {u v : String} {G : PackageGraph} {i : Nat}
    (hG : Built device packages u G) (hadj : G.Adj u v) (hi : hopPackage G (u, v) = .ok i)
    (hs : SoundChoice device packages i) : DeviceHop device packages v := by
  obtain ⟨p, hp, hinst⟩ := soundChoice_iff.1 hs
  obtain ⟨j, p', hj, hp', hv⟩ := hG.hopPackage_ok hadj
  rw [hi, Except.ok.injEq] at hj
  subst hj
  rw [hp, Option.some.injEq] at hp'
  subst hp'
  exact ⟨p, List.mem_of_getElem? hp, hinst, hv⟩

/-- **Soundness of `resolve`.** Whatever minimum-weight path the search returns, the chosen package
is one the device can install, exactly when every shortest chain starts with a direct hop. -/
theorem resolve_sound_iff (hcarry : ∀ p ∈ packages, Carries p) :
    (∀ shortestPath, ShortestPath shortestPath → ∀ i,
      resolve shortestPath device packages policy = .ok (some i) →
        SoundChoice device packages i) ↔ DirectFirstHops device packages policy := by
  constructor
  · intro hsound u t ty hu hty ht hk v q hgeo
    obtain ⟨G, hG⟩ := exists_built hu hty hcarry
    rw [← hG.adj_eq] at hgeo
    -- the routine is free to return this very geodesic
    obtain ⟨sp, hsp, hpath⟩ := shortestPath_search.exists_returning hG.cost_one hgeo
    obtain ⟨-, hp, -⟩ | ⟨v', q', i, hp, hi, hr⟩ := resolve_of_path hu ht hk hG hpath hgeo.walk
    · simp at hp
    · simp only [List.cons.injEq, true_and] at hp
      obtain ⟨rfl, rfl⟩ := hp
      have hadj := (List.isChain_cons_cons.1 hgeo.walk.chain).1
      exact direct_of_soundChoice hG hadj hi (hsound sp hsp i hr)
  · intro hdirect sp hsp i hr
    obtain ⟨u, t, G, v, q, hu, ht, hk, hG, hgeo, hi⟩ := resolve_ok_some hsp hr
    have hne : packages ≠ [] := by
      rintro rfl
      rcases (List.isChain_cons_cons.1 hgeo.walk.chain).1 with ⟨-, p, hp, -⟩ | ⟨b, hb, -⟩
      · cases hp
      · cases hb
    obtain ⟨p, hp⟩ := List.exists_mem_of_ne_nil packages hne
    obtain ⟨-, ty, hty⟩ := hG.carries hp
    exact soundChoice_of_direct hG hu hi (hdirect u t ty hu hty ht hk v q hgeo)

/-- A group holds packages for two boards: a `rpi` device running `v0` has only one package of its
own, which needs a key it does not report. -/
def mixedPackages : List PackageInfo :=
  [.ofItems [(metaSoftVer, "v0"), (metaDeviceType, "jetson")],
    .ofItems [(metaSoftVer, "v5"), (metaDeviceType, "jetson")],
    .ofItems [(metaSoftVer, "v5"), (metaDeviceType, "rpi"), ("requires:slot", "b")]]

def rpiDevice : Metadata :=
  (PackageInfo.ofItems [(metaSoftVer, "v0"), (metaDeviceType, "rpi")]).info

theorem mixedPackages_carry : ∀ p ∈ mixedPackages, Carries p := by
  intro p hp
  simp only [mixedPackages, List.mem_cons, List.not_mem_nil, or_false] at hp
  rcases hp with rfl | rfl | rfl
  · exact ⟨⟨"v0", by decide⟩, ⟨.str "jetson", by decide⟩⟩
  · exact ⟨⟨"v5", by decide⟩, ⟨.str "jetson", by decide⟩⟩
  · exact ⟨⟨"v5", by decide⟩, ⟨.str "rpi", by decide⟩⟩

/-- The `rpi` device is sent the `jetson` package. -/
theorem resolve_offers_other_board :
    (∀ p ∈ mixedPackages, Carries p) ∧ ShortestPath (MultiDiGraph.shortestPath : PackageGraph → _) ∧
      resolve MultiDiGraph.shortestPath rpiDevice mixedPackages (exactMatch "v5") = .ok (some 1) ∧
      ¬ SoundChoice rpiDevice mixedPackages 1 := by
  refine ⟨mixedPackages_carry, shortestPath_search, by decide, ?_⟩
  rintro ⟨p, hp, hr, -⟩
  have hp' : p = .ofItems [(metaSoftVer, "v5"), (metaDeviceType, "jetson")] := by
    simpa [mixedPackages] using hp.symm
  subst hp'
  revert hr
  decide

theorem resolve_sound_iff_mixed :
    (∀ p ∈ mixedPackages, Carries p) ∧
      ((∀ shortestPath, ShortestPath shortestPath → ∀ i,
        resolve shortestPath rpiDevice mixedPackages (exactMatch "v5") = .ok (some i) →
          SoundChoice rpiDevice mixedPackages i) ↔
        DirectFirstHops rpiDevice mixedPackages (exactMatch "v5")) :=
  ⟨mixedPackages_carry, resolve_sound_iff mixedPackages_carry⟩

end Rdfm.Server
