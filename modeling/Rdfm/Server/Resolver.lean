import Mathlib.Data.List.AList
import Mathlib.Data.List.ReduceOption
import Rdfm.Lib.Except
import Rdfm.Lib.MultiDiGraph

/-!
# The package resolver

The server's `PackageResolver`: from the metadata a device reports, the packages assigned to its
group and the group's policy it builds a multigraph over software versions and returns the first
package on a shortest path to the policy's target. Metadata values are strings or, for a device,
lists; a list is unhashable, so it cannot be a node. A missing key, an unhashable node and the
minimum of an empty list raise. The shortest-path routine is a parameter.
-/

namespace Rdfm.Server

open Rdfm.Lib

/-! ## Metadata -/

/-- A metadata value as the update-check schema admits it. -/
inductive MetaValue where
  | str (s : String)
  | list (items : List String)
deriving DecidableEq, Repr

abbrev Metadata := AList fun _ : String => MetaValue

/-- Package metadata is a dictionary of strings. -/
structure PackageInfo where
  info : Metadata
  strings : ∀ e ∈ info.entries, ∃ s, e.2 = .str s

/-- A dictionary of strings, from its items. -/
def PackageInfo.ofItems (items : List (String × String)) : PackageInfo where
  info := (items.map fun e => (⟨e.1, .str e.2⟩ : (_ : String) × MetaValue)).toAList
  strings := by
    rintro ⟨k, v⟩ he
    rw [AList.entries_toAList] at he
    have hlook := (List.mem_dlookup_iff (List.nodupKeys_dedupKeys _)).2 he
    rw [List.dlookup_dedupKeys] at hlook
    obtain ⟨x, -, hx⟩ := List.mem_map.1 (List.of_mem_dlookup hlook)
    cases hx
    exact ⟨x.2, rfl⟩

def metaSoftVer : String := "rdfm.software.version"

def metaDeviceType : String := "rdfm.hardware.devtype"

def requiresPrefix : String := "requires:"

inductive PyError where
  | keyError (key : String)
  | unhashable
  | emptyMin
deriving DecidableEq, Repr

/-- `d[k]`. -/
def getItem (d : Metadata) (k : String) : Except PyError MetaValue :=
  match d.lookup k with
  | some v => .ok v
  | none => .error (.keyError k)

/-- A value used as a graph node has to be hashable. -/
def asNode : MetaValue → Except PyError String
  | .str s => .ok s
  | .list _ => .error .unhashable

def startsWith (s pre : String) : Bool := pre.toList.isPrefixOf s.toList

def removePrefix (s pre : String) : String :=
  if startsWith s pre then String.ofList (s.toList.drop pre.toList.length) else s

/-! ## Requirements -/

/-- One turn of the loop over the items of `update`. -/
def checkClause (base : Metadata) (compatible : Bool) (item : (_ : String) × MetaValue) : Bool :=
  if !startsWith item.1 requiresPrefix then compatible
  else
    match base.lookup (removePrefix item.1 requiresPrefix) with
    | none => false
    | some w => if w ≠ item.2 then false else compatible

/-- `requirements_satisfied`: whether `update` can be installed on top of `base`. -/
def requirementsSatisfied (base update : Metadata) : Except PyError Bool := do
  let compatible := update.entries.foldl (checkClause base) true
  let compatible := if (← getItem base metaSoftVer) = (← getItem update metaSoftVer) then false
    else compatible
  let compatible := if (← getItem base metaDeviceType) ≠ (← getItem update metaDeviceType) then false
    else compatible
  return compatible

/-! ## Policies -/

/-- A policy names the version a device should run, or none. -/
structure BasePolicy where
  evaluate : Metadata → Option String

def noUpdate : BasePolicy := ⟨fun _ => none⟩

def exactMatch (version : String) : BasePolicy := ⟨fun _ => some version⟩

@[simp] theorem exactMatch_evaluate (version : String) (device : Metadata) :
    (exactMatch version).evaluate device = some version := rfl

/-! ## Resolution -/

/-- Edges carry the index of the package they install. -/
abbrev PackageGraph := MultiDiGraph String Nat

/-- The edge added for one candidate package, if it can be installed on `base`. -/
def candidateEdge (base : Metadata) (target : PackageInfo × Nat) :
    Except PyError (Option (Edge String Nat)) := do
  if ← requirementsSatisfied base target.1.info then
    let src ← asNode (← getItem base metaSoftVer)
    let dst ← asNode (← getItem target.1.info metaSoftVer)
    return some ⟨src, dst, 1, target.2⟩
  else
    return none

/-- The edges out of one base, in package order. -/
def edgesFrom (packages : List PackageInfo) (base : Metadata) :
    Except PyError (List (Edge String Nat)) := do
  return (← packages.zipIdx.mapM (candidateEdge base)).reduceOption

/-- The node added for one package, if it is for the device's type. -/
def versionNode (device : Metadata) (package : PackageInfo) : Except PyError (Option String) := do
  if (← getItem package.info metaDeviceType) ≠ (← getItem device metaDeviceType) then
    return none
  else
    return some (← asNode (← getItem package.info metaSoftVer))

/-- The package of a cheapest edge of one hop of the path, the first inserted. `out_edges` is
given both ends of the hop. -/
def hopPackage (G : PackageGraph) (hop : String × String) : Except PyError Nat :=
  match ((G.outEdges [hop.1, hop.2]).filter fun e => e.dst = hop.2).argmin Edge.cost with
  | some e => .ok e.data
  | none => .error .emptyMin

/-- The version nodes of the graph, before any edge is added. -/
def versionGraph (device : Metadata) (packages : List PackageInfo) (currentVersion : String) :
    Except PyError PackageGraph := do
  let versions ← packages.mapM (versionNode device)
  return versions.reduceOption.foldl MultiDiGraph.addNode (MultiDiGraph.empty.addNode currentVersion)

/-- The graph `resolve` searches: the device's edges, then those of every package. -/
def packageGraph (device : Metadata) (packages : List PackageInfo) (G : PackageGraph) :
    Except PyError PackageGraph := do
  let deviceEdges ← edgesFrom packages device
  let packageEdges ← packages.mapM fun base => edgesFrom packages base.info
  return (deviceEdges ++ packageEdges.flatten).foldl MultiDiGraph.addEdge G

/-- `PackageResolver.resolve`: the index of the package to install next. -/
def resolve (shortestPath : PackageGraph → String → String → Option (List String))
    (device : Metadata) (packages : List PackageInfo) (policy : BasePolicy) :
    Except PyError (Option Nat) := do
  let currentVersion ← getItem device metaSoftVer
  match policy.evaluate device with
  | none => return none
  | some targetVersion =>
    let currentVersion ← asNode currentVersion
    let G ← versionGraph device packages currentVersion
    if !G.hasNode targetVersion then
      return none
    let G ← packageGraph device packages G
    match shortestPath G currentVersion targetVersion with
    | none => return none
    | some sp =>
      let edgePath ← (sp.zip sp.tail).mapM (hopPackage G)
      return edgePath.head?

end Rdfm.Server
