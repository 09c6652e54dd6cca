import Rdfm.Linux.Install

/-!
# What an installation lets through

Payload data may only reach a handler on a device of a compatible type that provides all the artifact
depends on (`Gate`). The dependency check does what it should (`verifyDependencies_eq_none_iff`), but
nothing compares the device type, and provides that cannot be loaded end in a panic, so the gate
holds exactly where these two do not matter (`installGate_iff`).
-/

namespace Rdfm.Linux

open Rdfm.Lib

variable {R : Type} {dev : DeviceManager R} {io : CallFaults} {art : Artifact} {w : DeviceState R}

/-! ## The gate -/

/-- The provided value is the depended one, or one of them. -/
def DependsValue.Allows : DependsValue → Text → Prop
  | .str s, p => p = s
  | .strs l, p => p ∈ l
  | .anys l, p => some p ∈ l
  | .other, _ => False

/-- Every dependency but the device type is provided. -/
def DependsMet (provides : List (Text × Text)) (depends : Option (List (Text × DependsValue))) :
    Prop :=
  ∃ entries, depends = some entries ∧ ∀ e ∈ entries, e.1 ≠ "device_type".toList →
    ∃ p, (injectProvides provides).lookup e.1 = some p ∧ e.2.Allows p

/-- When an artifact may be installed. -/
def Gate (dev : DeviceManager R) (art : Artifact) (w : DeviceState R) : Prop :=
  dev.deviceType ∈ art.compatibleDevices ∧
    ∃ provides, dev.loadProvides w.artifactData = some provides ∧ DependsMet provides art.depends

/-- The gate is kept: data passes only through it, and what does not pass ends in an error with
nothing changed. -/
def KeepsGate (dev : DeviceManager R) (art : Artifact) (w : DeviceState R) : Prop :=
  ∀ io, ((doInstallStates dev io art w).dataPassed = true → Gate dev art w) ∧
    (¬ Gate dev art w → (∃ e, (doInstallStates dev io art w).outcome = .error e) ∧
      (doInstallStates dev io art w).state = w)

/-! ## Dependencies -/

section Dependencies

variable {elemInSlice : List (Option Text) → Text → Bool × Bool}
  (helem : ∀ l p, (elemInSlice l p).1 = true ↔ some p ∈ l)

include helem

theorem verifyDependency_eq_none_iff {provides : List (Text × Text)} {key : Text}
    {depend : DependsValue} :
    verifyDependency elemInSlice provides key depend = none ↔
      (key ≠ "device_type".toList → ∃ p, provides.lookup key = some p ∧ depend.Allows p) := by
  unfold verifyDependency
  by_cases hkey : key = "device_type".toList
  · rw [if_pos hkey]
    exact iff_of_true rfl (fun h => absurd hkey h)
  · rw [if_neg hkey]
    simp only [ne_eq, hkey, not_false_eq_true, forall_const]
    cases hp : provides.lookup key with
    | none => simp
    | some p =>
      cases depend with
      | str s => simp [DependsValue.Allows]
      | strs l =>
        have := helem (l.map some) p
        simp only [List.mem_map, Option.some.injEq, exists_eq_right] at this
        simp [DependsValue.Allows, this]
      | anys l =>
        have := helem l p
        by_cases hmem : some p ∈ l
        · simp [DependsValue.Allows, this.mpr hmem, hmem]
        · have hfalse : (elemInSlice l p).1 ≠ true := fun h => hmem (this.mp h)
          simp only [if_neg hfalse, DependsValue.Allows, Option.some.injEq, exists_eq_left', hmem,
            iff_false]
          split <;> exact nofun
      | other => simp [DependsValue.Allows]

/-- The check passes exactly when the dependencies are met. -/
theorem verifyDependencies_eq_none_iff {provides : List (Text × Text)}
    {depends : Option (List (Text × DependsValue))} :
    verifyDependencies elemInSlice (injectProvides provides) depends = none ↔
      DependsMet provides depends := by
  unfold DependsMet
  cases depends with
  | none => simp [verifyDependencies]
  | some entries =>
    rw [verifyDependencies, List.findSome?_eq_none_iff]
    simp only [Option.some.injEq, exists_eq_left']
    exact forall₂_congr fun e _ => verifyDependency_eq_none_iff helem

end Dependencies

/-! ## When an installation succeeds -/

/-- The payload that a handler is for; a reader that drops its data is for none. -/
def Installer.payloadType : Installer → Option PayloadType
  | .rootfs => some .rootfsImage
  | .singleFile _ => some .singleFile
  | .discard => none

/-- The payloads that are not dropped. -/
def handledPayloads (dev : DeviceManager R) (art : Artifact) : List PayloadType :=
  (art.payloads.map Payload.type).filter fun t => t = .singleFile || dev.dualRootfs.isSome

def fileCount (payloads : List Payload) : Nat := payloads.foldr (fun p n => p.files.length + n) 0

/-- Headers, dependencies, payload data and handlers let the artifact through. -/
structure Installs (dev : DeviceManager R) (io : CallFaults) (art : Artifact) (w : DeviceState R) :
    Prop where
  headers : art.headersOk = true
  depends : ∃ provides, dev.loadProvides w.artifactData = some provides ∧
    verifyDependencies dev.elemInSlice (injectProvides provides) art.depends = none
  data : ∀ n ∈ io.data, fileCount art.payloads ≤ n
  handlers : ∀ i, (handledPayloads dev art)[i]? = some .rootfsImage → io.install i = false

theorem storeFile_payloadType (f : DataFile) (inst : Installer) (w : DeviceState R) :
    (storeFile dev f inst w).1.payloadType = inst.payloadType := by
  cases inst <;> rfl

variable (dev) in
theorem storeFiles_spec (budget : Option Nat) (files : List DataFile) (inst : Installer)
    (w : DeviceState R) :
    ((storeFiles dev budget files inst w).1 = false ↔ ∀ n ∈ budget, files.length ≤ n) ∧
      ((storeFiles dev budget files inst w).1 = false →
        (storeFiles dev budget files inst w).2.1 = budget.map (· - files.length)) ∧
      (storeFiles dev budget files inst w).2.2.1.payloadType = inst.payloadType := by
  induction files generalizing budget inst w with
  | nil =>
    have heq : storeFiles dev budget [] inst w = (false, budget, inst, w) := by
      unfold storeFiles
      split <;> trivial
    rw [heq]
    refine ⟨iff_of_true rfl (fun n _ => Nat.zero_le n), fun _ => ?_, rfl⟩
    cases budget <;> rfl
  | cons f files ih =>
    by_cases hzero : budget = some 0
    · subst hzero
      rw [storeFiles]
      refine ⟨iff_of_false Bool.noConfusion ?_, nofun, rfl⟩
      intro h
      exact absurd (h 0 rfl) (Nat.not_succ_le_zero _)
    · rw [storeFiles]
      · rcases ih (budget.map (· - 1)) (storeFile dev f inst w).1 (storeFile dev f inst w).2 with
          ⟨hfails, hbudget, hkind⟩
        refine ⟨hfails.trans ?_, fun h => ?_, hkind.trans (storeFile_payloadType f inst w)⟩
        · cases budget with
          | none => simp
          | some n =>
            have hpos : n ≠ 0 := fun h => hzero (h ▸ rfl)
            simp only [Option.map_some, Option.mem_def, Option.some.injEq, forall_eq',
              List.length_cons]
            omega
        · rw [hbudget h]
          cases budget with
          | none => rfl
          | some n =>
            rw [Option.map_some, Option.map_some, Option.map_some, List.length_cons]
            congr 1
            omega
      · simpa using hzero

variable (dev) in
theorem storePayloads_spec (budget : Option Nat) (payloads : List Payload) (w : DeviceState R) :
    ((storePayloads dev budget payloads w).1 = false ↔ ∀ n ∈ budget, fileCount payloads ≤ n) ∧
      (storePayloads dev budget payloads w).2.1.map Installer.payloadType =
        payloads.map fun p => (newInstaller dev p.type).payloadType := by
  induction payloads generalizing budget w with
  | nil => exact ⟨iff_of_true rfl (fun n _ => Nat.zero_le n), rfl⟩
  | cons p payloads ih =>
    rcases storeFiles_spec dev budget p.files (newInstaller dev p.type) w with
      ⟨hfails, hbudget, hkind⟩
    have hcount : fileCount (p :: payloads) = p.files.length + fileCount payloads := rfl
    rw [storePayloads]
    split
    · next budget' inst w' hfiles =>
      rw [hfiles] at hfails hkind
      have hnot := mt hfails.mpr Bool.noConfusion
      refine ⟨iff_of_false Bool.noConfusion (fun h => hnot fun n hn => ?_), ?_⟩
      · have := h n hn
        omega
      · simp only [List.map_cons, List.map_map]
        rw [hkind]
        rfl
    · next budget' inst w' hfiles =>
      rw [hfiles] at hfails hkind hbudget
      have hle := hfails.mp rfl
      have hrest : budget' = budget.map (· - p.files.length) := hbudget rfl
      subst hrest
      rcases ih (budget.map (· - p.files.length)) w' with ⟨ihFails, ihKinds⟩
      refine ⟨ihFails.trans ?_, ?_⟩
      · cases budget with
        | none => simp
        | some n =>
          have := hle n rfl
          simp only [Option.map_some, Option.mem_def, Option.some.injEq, forall_eq']
          omega
      · dsimp only at hkind ⊢
        rw [List.map_cons, List.map_cons, hkind, ihKinds]

theorem installHandlers_eq_false_iff (k : Nat) (insts : List Installer) (w : DeviceState R) :
    (installHandlers dev io k insts w).1 = false ↔
      ∀ i, insts[i]? = some .rootfs → io.install (k + i) = false := by
  induction insts generalizing k w with
  | nil => simp [installHandlers]
  | cons inst insts ih =>
    have hcons : (∀ i, (inst :: insts)[i]? = some .rootfs → io.install (k + i) = false) ↔
        (inst = .rootfs → io.install k = false) ∧
          ∀ i, insts[i]? = some .rootfs → io.install (k + 1 + i) = false := by
      constructor
      · intro h
        refine ⟨fun hinst => h 0 (by rw [hinst]; rfl), fun i hi => ?_⟩
        have := h (i + 1) hi
        rwa [Nat.add_assoc, Nat.add_comm 1 i]
      · rintro ⟨hzero, hsucc⟩ i hi
        cases i with
        | zero => exact hzero (Option.some.inj hi)
        | succ i =>
          have := hsucc i hi
          rwa [Nat.add_assoc, Nat.add_comm 1 i] at this
    rw [hcons]
    cases inst with
    | rootfs =>
      rw [installHandlers]
      by_cases hfails : io.install k = true
      · rw [if_pos hfails]
        exact iff_of_false Bool.noConfusion (fun h => by rw [h.1 rfl] at hfails; cases hfails)
      · rw [if_neg hfails, ih]
        exact (and_iff_right fun _ => Bool.eq_false_iff.mpr hfails).symm
    | singleFile s =>
      rw [installHandlers, ih]
      · exact (and_iff_right nofun).symm
      · exact nofun
    | discard =>
      rw [installHandlers, ih]
      · exact (and_iff_right nofun).symm
      · exact nofun

variable (dev) in
/-- The handlers that install are those of the payloads that are not dropped. -/
theorem performers_payloadType (budget : Option Nat) (art : Artifact) (w : DeviceState R) :
    (performers (storePayloads dev budget art.payloads w).2.1).map Installer.payloadType =
      (handledPayloads dev art).map some := by
  have hperformers (insts : List Installer) : (performers insts).map Installer.payloadType =
      (insts.map Installer.payloadType).filter Option.isSome := by
    unfold performers
    rw [List.filter_map]
    congr 1
    apply List.filter_congr
    intro inst _
    cases inst <;> simp [Installer.payloadType]
  rw [hperformers, (storePayloads_spec dev budget art.payloads w).2]
  unfold handledPayloads
  induction art.payloads with
  | nil => rfl
  | cons p payloads ih =>
    rw [List.map_cons, List.map_cons, List.filter_cons, List.filter_cons, ih]
    cases ht : p.type with
    | singleFile => rfl
    | rootfsImage =>
      by_cases hdual : dev.dualRootfs.isSome = true
      · simp [newInstaller, hdual, Installer.payloadType]
      · simp [newInstaller, hdual, Installer.payloadType]

theorem performers_rootfs (budget : Option Nat) (art : Artifact) (w : DeviceState R) (i : Nat) :
    (performers (storePayloads dev budget art.payloads w).2.1)[i]? = some .rootfs ↔
      (handledPayloads dev art)[i]? = some .rootfsImage := by
  have hindex := congrArg (fun l => l[i]?) (performers_payloadType dev budget art w)
  simp only [List.getElem?_map] at hindex
  constructor
  · intro h
    rw [h] at hindex
    cases ht : (handledPayloads dev art)[i]? with
    | none =>
      rw [ht] at hindex
      cases hindex
    | some t =>
      rw [ht] at hindex
      cases hindex
      rfl
  · intro h
    rw [h] at hindex
    cases hi : (performers (storePayloads dev budget art.payloads w).2.1)[i]? with
    | none =>
      rw [hi] at hindex
      cases hindex
    | some inst =>
      rw [hi] at hindex
      cases inst with
      | rootfs => rfl
      | singleFile s => cases hindex
      | discard => cases hindex

/-- **An installation succeeds** exactly if nothing stands in its way. -/
theorem doInstallStates_ok_iff :
    (doInstallStates dev io art w).outcome = .ok ↔ Installs dev io art w := by
  have hhandlers (w' : DeviceState R) :
      (installHandlers dev io 0 (performers (storePayloads dev io.data art.payloads w).2.1) w').1 =
        false ↔ ∀ i, (handledPayloads dev art)[i]? = some .rootfsImage → io.install i = false := by
    simp only [installHandlers_eq_false_iff, Nat.zero_add, performers_rootfs]
  have hdata := (storePayloads_spec dev io.data art.payloads w).1
  unfold doInstallStates
  by_cases hheaders : art.headersOk = true
  · have hinit : ¬ initializeArtifactHandlers art = false := by
      simp [initializeArtifactHandlers, readArtifactHeaders, hheaders]
    rw [if_neg hinit]
    rcases hload : dev.loadProvides w.artifactData with _ | provides
    · refine iff_of_false nofun (fun h => ?_)
      rcases h.depends with ⟨provides, hp, -⟩
      rw [hload] at hp
      cases hp
    · dsimp only
      rcases hverify : verifyDependencies dev.elemInSlice (injectProvides provides) art.depends with
        _ | e
      · dsimp only
        rcases hs : storePayloads dev io.data art.payloads w with ⟨failed, insts, w'⟩
        rw [hs] at hdata hhandlers
        dsimp only at hdata hhandlers ⊢
        cases failed with
        | true =>
          rw [if_pos rfl]
          exact iff_of_false nofun (fun h => nomatch hdata.mpr h.data)
        | false =>
          rw [if_neg Bool.false_ne_true]
          have hfails := hhandlers w'
          rcases hi : installHandlers dev io 0 (performers insts) w' with ⟨failed, w''⟩
          rw [hi] at hfails
          cases failed with
          | true =>
            dsimp only
            rw [if_pos rfl]
            exact iff_of_false nofun (fun h => nomatch hfails.mpr h.handlers)
          | false =>
            dsimp only
            rw [if_neg Bool.false_ne_true]
            have hinstalls : Installs dev io art w :=
              ⟨hheaders, ⟨provides, hload, hverify⟩, hdata.mp rfl, hfails.mp rfl⟩
            split <;> exact iff_of_true rfl hinstalls
      · refine iff_of_false nofun (fun h => ?_)
        rcases h.depends with ⟨provides', hp, hv⟩
        rw [hload] at hp
        cases hp
        rw [hverify] at hv
        cases hv
  · have hinit : initializeArtifactHandlers art = false := by
      simp [initializeArtifactHandlers, readArtifactHeaders, hheaders]
    rw [if_pos hinit]
    exact iff_of_false nofun (fun h => hheaders h.headers)

/-- Without faults, what passes the dependency check is installed. -/
theorem doInstallStates_ok {provides : List (Text × Text)} (hheaders : art.headersOk = true)
    (hload : dev.loadProvides w.artifactData = some provides)
    (hverify : verifyDependencies dev.elemInSlice (injectProvides provides) art.depends = none) :
    (doInstallStates dev noCallFaults art w).outcome = .ok :=
  doInstallStates_ok_iff.mpr ⟨hheaders, ⟨provides, hload, hverify⟩, nofun, fun _ _ => rfl⟩

/-! ## Where the gate is kept -/

/-- **The install gate is kept** exactly when the headers cannot be read, or the provides can be
loaded and an artifact whose other dependencies are met is also for this type of device. -/
theorem installGate_iff (helem : ∀ l p, (dev.elemInSlice l p).1 = true ↔ some p ∈ l) :
    KeepsGate dev art w ↔ art.headersOk = false ∨
      ∃ provides, dev.loadProvides w.artifactData = some provides ∧
        (DependsMet provides art.depends → dev.deviceType ∈ art.compatibleDevices) := by
  constructor
  · intro h
    cases hheaders : art.headersOk with
    | false => exact .inl rfl
    | true =>
      right
      have hinit : initializeArtifactHandlers art = true := by
        simp [initializeArtifactHandlers, readArtifactHeaders, hheaders]
      rcases hload : dev.loadProvides w.artifactData with _ | provides
      · -- the assignment to the nil map
        have hgate : ¬ Gate dev art w := by
          intro ⟨_, provides, hp, _⟩
          rw [hload] at hp
          cases hp
        rcases ((h noCallFaults).2 hgate).1 with ⟨e, he⟩
        unfold doInstallStates at he
        rw [hinit, hload] at he
        cases he
      · refine ⟨provides, rfl, fun hmet => ?_⟩
        -- nothing else stands between the dependencies and the handlers
        by_contra hdevice
        have hgate : ¬ Gate dev art w := fun hg => hdevice hg.1
        rcases ((h noCallFaults).2 hgate).1 with ⟨e, he⟩
        rw [doInstallStates_ok hheaders hload ((verifyDependencies_eq_none_iff helem).mpr hmet)] at he
        cases he
  · intro h io
    rcases h with hheaders | ⟨provides, hload, hdevice⟩
    · have hinit : initializeArtifactHandlers art = false := by
        simp [initializeArtifactHandlers, readArtifactHeaders, hheaders]
      unfold doInstallStates
      rw [if_pos hinit]
      exact ⟨nofun, fun _ => ⟨⟨_, rfl⟩, rfl⟩⟩
    · by_cases hmet : DependsMet provides art.depends
      · have hgate : Gate dev art w := ⟨hdevice hmet, provides, hload, hmet⟩
        exact ⟨fun _ => hgate, fun hn => absurd hgate hn⟩
      · have hverify := mt (verifyDependencies_eq_none_iff helem).mp hmet
        rcases Option.ne_none_iff_exists'.mp hverify with ⟨e, he⟩
        unfold doInstallStates
        split
        · exact ⟨nofun, fun _ => ⟨⟨_, rfl⟩, rfl⟩⟩
        · rw [hload]
          dsimp only
          rw [he]
          exact ⟨nofun, fun _ => ⟨⟨_, rfl⟩, rfl⟩⟩

/-! ### A device of another type -/

/-- A board `rpi` without provides. -/
def rpiDevice : DeviceManager Unit where
  deviceType := "rpi".toList
  dualRootfs := none
  loadProvides _ := some []
  commitArtifactData a _ := some a
  elemInSlice := memSlice

/-- A file for the given boards. -/
def boardArtifact (boards : List Text) : Artifact where
  headersOk := true
  compatibleDevices := boards
  depends := some [("device_type".toList, .strs boards)]
  provides := some []
  clearsProvides := []
  name := "config".toList
  payloads := [⟨.singleFile, [⟨"dest_dir".toList, [47, 101, 116, 99]⟩]⟩]

def blankState : DeviceState Unit where
  fs := ⟨fun _ => none, fun _ => false, id⟩
  rootfs := ()
  standaloneState := .absent
  singleFileData := .absent
  artifactData := ⟨"base".toList, [], []⟩

/-- The gate is kept for the right board. -/
theorem installGate_rpi : KeepsGate rpiDevice (boardArtifact ["rpi".toList]) blankState := by
  apply (installGate_iff ?_).mpr
  · exact .inr ⟨[], rfl, fun _ => by decide⟩
  · intro l p
    exact decide_eq_true_iff

/-- An artifact for another board is installed. -/
theorem installGate_jetson : ¬ KeepsGate rpiDevice (boardArtifact ["jetson".toList]) blankState := by
  intro h
  have hgate : ¬ Gate rpiDevice (boardArtifact ["jetson".toList]) blankState :=
    fun hg => absurd hg.1 (by decide)
  rcases ((h noCallFaults).2 hgate).1 with ⟨e, he⟩
  have hok : (doInstallStates rpiDevice noCallFaults (boardArtifact ["jetson".toList])
      blankState).outcome = .ok := by
    decide
  rw [hok] at he
  cases he

end Rdfm.Linux
