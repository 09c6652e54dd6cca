import Rdfm.Linux.Install

/-!
# Commit and rollback towards the database

`DoCommit` and `DoRollback` should be all or nothing: the installed name and provides change only if
every payload of the update was committed, and after a failure the saved update is still there to be
ended again (`AllOrNothing`). The loop over the payloads drops every answer, and restoring a
single-file handler removes its record, so this holds exactly when no payload fails, or when the
transaction fails as well and no record was read (`doEnd_allOrNothing_iff`).
-/

namespace Rdfm.Linux

open Rdfm.Lib

variable {R : Type} {dev : DeviceManager R} {io : CallFaults} {e : Ending} {w w₁ : DeviceState R}

/-! ## The property -/

/-- An ending is all or nothing. -/
structure AllOrNothing (dev : DeviceManager R) (io : CallFaults) (e : Ending) (w : DeviceState R) :
    Prop where
  /-- A rollback leaves the installed artifact as it is. -/
  rollback_keeps : e = .rollback → (doEnd dev io e w).state.artifactData = w.artifactData
  /-- A commit changes it only if every payload was committed. -/
  changes_only : (doEnd dev io e w).state.artifactData ≠ w.artifactData →
    ∀ failed ∈ (doEnd dev io e w).failed, failed = false
  /-- A failure is reported, and the saved update is still there. -/
  repeatable : (∃ failed ∈ (doEnd dev io e w).failed, failed = true) →
    (doEnd dev io e w).err ≠ none ∧
      (doEnd dev io e w).state.standaloneState = w.standaloneState ∧
      (doEnd dev io e w).state.singleFileData = w.singleFileData

/-- The `i`-th payload comes through: it has a handler, the handler finds its record and can decode it,
and the call succeeds. The record is there for the first single-file payload only. -/
def PayloadOk (dev : DeviceManager R) (io : CallFaults) (e : Ending)
    (record : Stored SingleFileData) (fs : FileSys) (k : Nat) (types : List Text) (i : Nat) : Prop :=
  (types[i]? = some PayloadType.rootfsImage.name ∧ ∃ d, dev.dualRootfs = some d ∧
    match e with
    | .commit => io.commit (k + i) = false
    | .rollback => d.supportsRollback = true → io.rollback (k + i) = false) ∨
  (types[i]? = some PayloadType.singleFile.name ∧
    (∀ j < i, types[j]? ≠ some PayloadType.singleFile.name) ∧
    io.restore (k + i) = false ∧ ∃ s, record = .value s ∧
    (e = .rollback → s.rollbackSupport = true →
      fs.read s.rollbackFileName ≠ none ∧ io.rollback (k + i) = false))

/-- Some single-file handler reads the record. -/
def ReadsRecord (io : CallFaults) (record : Stored SingleFileData) (k : Nat) (types : List Text) :
    Prop :=
  record ≠ .absent ∧ ∃ i, types[i]? = some PayloadType.singleFile.name ∧ io.restore (k + i) = false

/-- The database transaction of an ending fails. -/
def TxnFails (dev : DeviceManager R) (io : CallFaults) (e : Ending) (stateData : StateData)
    (w : DeviceState R) : Prop :=
  io.txn = true ∨ e = .commit ∧ stateData.artifactName ≠ [] ∧
    dev.commitArtifactData w.artifactData stateData = none

/-! ## What the loops leave alone -/

/-- Everything but the files and the dual-rootfs device. -/
structure SameKeys (w w' : DeviceState R) : Prop where
  standaloneState : w'.standaloneState = w.standaloneState
  singleFileData : w'.singleFileData = w.singleFileData
  artifactData : w'.artifactData = w.artifactData

theorem SameKeys.refl (w : DeviceState R) : SameKeys w w := ⟨rfl, rfl, rfl⟩

theorem SameKeys.trans {w w' w'' : DeviceState R} (h : SameKeys w w') (h' : SameKeys w' w'') :
    SameKeys w w'' :=
  ⟨h'.1.trans h.1, h'.2.trans h.2, h'.3.trans h.3⟩

theorem onRootfs_sameKeys (f : DualRootfs R → R → R) (w : DeviceState R) :
    SameKeys w (onRootfs dev f w) := by
  unfold onRootfs
  split <;> exact ⟨rfl, rfl, rfl⟩

theorem onRootfs_fs (f : DualRootfs R → R → R) (w : DeviceState R) :
    (onRootfs dev f w).fs = w.fs := by
  unfold onRootfs
  split <;> rfl

theorem rollbackInstaller_sameKeys (fails : Bool) (inst : Installer) (w : DeviceState R) :
    SameKeys w (rollbackInstaller dev fails inst w).2 := by
  cases inst with
  | rootfs => exact onRootfs_sameKeys _ w
  | singleFile s => exact ⟨rfl, rfl, rfl⟩
  | discard => exact .refl w

theorem commitInstaller_sameKeys (fails : Bool) (inst : Installer) (w : DeviceState R) :
    SameKeys w (commitInstaller dev fails inst w).2 := by
  cases inst with
  | rootfs => exact onRootfs_sameKeys _ w
  | singleFile s => exact ⟨rfl, rfl, rfl⟩
  | discard => exact .refl w

theorem endInstaller_sameKeys (i : Nat) (inst : Installer) (w : DeviceState R) :
    SameKeys w (endInstaller dev io e i inst w).2 := by
  cases e with
  | commit => exact commitInstaller_sameKeys _ inst w
  | rollback =>
    unfold endInstaller
    dsimp only
    split
    · exact rollbackInstaller_sameKeys _ inst w
    · exact .refl w

theorem endHandlers_sameKeys (i : Nat) (rs : List Restored) (w : DeviceState R) :
    SameKeys w (endHandlers dev io e i rs w).2 := by
  induction rs generalizing i w with
  | nil => exact .refl w
  | cons r rs ih =>
    unfold endHandlers
    cases r.installer with
    | none => exact ih (i + 1) w
    | some inst => exact (endInstaller_sameKeys i inst w).trans (ih (i + 1) _)

/-! ## Restoring the handlers -/

variable {k : Nat} {payType : Text} {types : List Text}

theorem restore_rootfs (hd : dev.dualRootfs.isSome = true) (w : DeviceState R) :
    restoreHandlersFromStore dev io k (PayloadType.rootfsImage.name :: types) w =
      (⟨some .rootfs, false⟩ :: (restoreHandlersFromStore dev io (k + 1) types w).1,
        (restoreHandlersFromStore dev io (k + 1) types w).2) := by
  rw [restoreHandlersFromStore, if_pos ⟨rfl, hd⟩]

theorem singleFile_ne_rootfs : PayloadType.singleFile.name ≠ PayloadType.rootfsImage.name := by
  decide

theorem restore_singleFile (w : DeviceState R) :
    restoreHandlersFromStore dev io k (PayloadType.singleFile.name :: types) w =
      (⟨some (.singleFile (restoreState (io.restore k) w).2.1), (restoreState (io.restore k) w).1⟩ ::
          (restoreHandlersFromStore dev io (k + 1) types (restoreState (io.restore k) w).2.2).1,
        (restoreHandlersFromStore dev io (k + 1) types (restoreState (io.restore k) w).2.2).2) := by
  rw [restoreHandlersFromStore, if_neg (fun h => singleFile_ne_rootfs h.1), if_pos rfl]

theorem restore_other (hr : ¬ (payType = PayloadType.rootfsImage.name ∧ dev.dualRootfs.isSome = true))
    (hs : payType ≠ PayloadType.singleFile.name) (w : DeviceState R) :
    restoreHandlersFromStore dev io k (payType :: types) w =
      (⟨none, false⟩ :: (restoreHandlersFromStore dev io (k + 1) types w).1,
        (restoreHandlersFromStore dev io (k + 1) types w).2) := by
  rw [restoreHandlersFromStore, if_neg hr, if_neg hs]

/-- The three kinds of payload types. -/
theorem payType_cases (dev : DeviceManager R) (payType : Text) :
    (payType = PayloadType.rootfsImage.name ∧ dev.dualRootfs.isSome = true) ∨
      payType = PayloadType.singleFile.name ∨
      ¬ (payType = PayloadType.rootfsImage.name ∧ dev.dualRootfs.isSome = true) ∧
        payType ≠ PayloadType.singleFile.name := by
  tauto

theorem readsRecord_cons {record : Stored SingleFileData} :
    ReadsRecord io record k (payType :: types) ↔ record ≠ .absent ∧
      ((payType = PayloadType.singleFile.name ∧ io.restore k = false) ∨
        ReadsRecord io record (k + 1) types) := by
  unfold ReadsRecord
  constructor
  · rintro ⟨hr, i, hi, hio⟩
    refine ⟨hr, ?_⟩
    cases i with
    | zero =>
      rw [List.getElem?_cons_zero, Option.some.injEq] at hi
      exact .inl ⟨hi, hio⟩
    | succ i =>
      rw [List.getElem?_cons_succ] at hi
      rw [Nat.add_comm i 1, ← Nat.add_assoc] at hio
      exact .inr ⟨hr, i, hi, hio⟩
  · rintro ⟨hr, ⟨rfl, hio⟩ | ⟨-, i, hi, hio⟩⟩
    · exact ⟨hr, 0, rfl, hio⟩
    · refine ⟨hr, i + 1, by rwa [List.getElem?_cons_succ], ?_⟩
      rwa [Nat.add_comm i 1, ← Nat.add_assoc]

/-- A record that is read is gone. -/
theorem restoreState_state (fails : Bool) (w : DeviceState R) :
    (restoreState fails w).2.2 =
      { w with singleFileData := if fails then w.singleFileData else .absent } := by
  rcases w with ⟨fs, rootfs, state, record, artifactData⟩
  cases fails <;> cases record <;> rfl

/-- Only the record of the single-file handlers moves, and only when it is read. -/
theorem restoreHandlers_state (k : Nat) (types : List Text) (w : DeviceState R) :
    ∃ record, (restoreHandlersFromStore dev io k types w).2 = { w with singleFileData := record } ∧
      (record = w.singleFileData ∨ record = .absent) ∧
      (record = w.singleFileData ↔ ¬ ReadsRecord io w.singleFileData k types) := by
  induction types generalizing k w with
  | nil =>
    refine ⟨w.singleFileData, rfl, .inl rfl, iff_of_true rfl ?_⟩
    intro ⟨_, i, hi, _⟩
    simp at hi
  | cons payType types ih =>
    rcases payType_cases dev payType with ⟨rfl, hd⟩ | rfl | ⟨hr, hs⟩
    · rcases ih (k + 1) w with ⟨record, hw, hor, hiff⟩
      refine ⟨record, by rw [restore_rootfs hd]; exact hw, hor, hiff.trans (not_congr ?_)⟩
      rw [readsRecord_cons]
      simp only [singleFile_ne_rootfs.symm, false_and, false_or]
      exact ⟨fun h => ⟨h.1, h⟩, fun h => h.2⟩
    · rcases ih (k + 1) (restoreState (io.restore k) w).2.2 with ⟨record, hw, hor, hiff⟩
      rw [restoreState_state] at hw hor hiff
      refine ⟨record, ?_, ?_, ?_⟩
      · rw [restore_singleFile]
        rw [restoreState_state]
        exact hw
      · cases hio : io.restore k with
        | true => simpa [hio] using hor
        | false => simp [hio] at hor; exact .inr hor
      · rw [readsRecord_cons]
        cases hio : io.restore k with
        | true =>
          simp only [hio, if_true] at hiff
          refine hiff.trans (not_congr ?_)
          simp only [Bool.true_eq_false, and_false, false_or]
          exact ⟨fun h => ⟨h.1, h⟩, fun h => h.2⟩
        | false =>
          have hrec : record = .absent := by simpa [hio] using hor
          subst hrec
          simp only [and_self, true_or, and_true, not_not]
          exact eq_comm
    · rcases ih (k + 1) w with ⟨record, hw, hor, hiff⟩
      refine ⟨record, by rw [restore_other hr hs]; exact hw, hor, hiff.trans (not_congr ?_)⟩
      rw [readsRecord_cons]
      simp only [hs, false_and, false_or]
      exact ⟨fun h => ⟨h.1, h⟩, fun h => h.2⟩

/-! ## Which payloads fail -/

section Fails

variable {record : Stored SingleFileData} {fs : FileSys} {i : Nat}

/-- Behind a payload that is no single file, payloads come through as they do alone. -/
theorem payloadOk_succ (hs : payType ≠ PayloadType.singleFile.name) :
    PayloadOk dev io e record fs k (payType :: types) (i + 1) ↔
      PayloadOk dev io e record fs (k + 1) types i := by
  have hk : k + (i + 1) = k + 1 + i := by omega
  unfold PayloadOk
  rw [List.getElem?_cons_succ, hk]
  have hfirst : (∀ j < i + 1, (payType :: types)[j]? ≠ some PayloadType.singleFile.name) ↔
      ∀ j < i, types[j]? ≠ some PayloadType.singleFile.name := by
    constructor
    · intro h j hj
      exact h (j + 1) (by omega)
    · intro h j hj
      cases j with
      | zero =>
        rw [List.getElem?_cons_zero]
        exact fun heq => hs (Option.some.inj heq)
      | succ j => exact h j (by omega)
  rw [hfirst]

/-- Behind a single file only a rootfs payload comes through, as after an absent record. -/
theorem payloadOk_succ_singleFile {fs' : FileSys} :
    PayloadOk dev io e record fs k (PayloadType.singleFile.name :: types) (i + 1) ↔
      PayloadOk dev io e .absent fs' (k + 1) types i := by
  have hk : k + (i + 1) = k + 1 + i := by omega
  unfold PayloadOk
  rw [List.getElem?_cons_succ, hk]
  refine or_congr_right (iff_of_false ?_ ?_)
  · intro ⟨_, hfirst, _⟩
    exact hfirst 0 (by omega) rfl
  · rintro ⟨_, _, _, s, hrecord, _⟩
    cases hrecord

theorem forall_lt_cons {P : Nat → Prop} :
    (∀ i < (payType :: types).length, P i) ↔ P 0 ∧ ∀ i < types.length, P (i + 1) := by
  constructor
  · intro h
    exact ⟨h 0 (Nat.zero_lt_succ _), fun i hi => h (i + 1) (Nat.succ_lt_succ hi)⟩
  · intro ⟨h0, hsucc⟩ i hi
    cases i with
    | zero => exact h0
    | succ i => exact hsucc i (Nat.lt_of_succ_lt_succ hi)

/-- The first payload, when it is a rootfs image. -/
theorem payloadOk_rootfs {d : DualRootfs R} (hd : dev.dualRootfs = some d) :
    PayloadOk dev io e record fs k (PayloadType.rootfsImage.name :: types) 0 ↔
      (endInstaller dev io e k .rootfs w).1 = false := by
  unfold PayloadOk
  simp only [List.getElem?_cons_zero, Option.some.injEq, hd, exists_eq_left', true_and,
    singleFile_ne_rootfs.symm, false_and, or_false, Nat.add_zero]
  cases e with
  | commit => rfl
  | rollback =>
    simp only [endInstaller, supportsRollback, hd, Option.map_some, Option.getD_some]
    cases d.supportsRollback with
    | true => simp [rollbackInstaller]
    | false => simp

/-- The first payload, when it is a single file. -/
theorem payloadOk_singleFile (hrecord : record = w.singleFileData) :
    PayloadOk dev io e record w₁.fs k (PayloadType.singleFile.name :: types) 0 ↔
      (restoreState (io.restore k) w).1 = false ∧
        (endInstaller dev io e k (.singleFile (restoreState (io.restore k) w).2.1) w₁).1 = false := by
  subst hrecord
  unfold PayloadOk
  simp only [List.getElem?_cons_zero, Option.some.injEq, singleFile_ne_rootfs, false_and, false_or,
    true_and, Nat.not_lt_zero, false_implies, implies_true, Nat.add_zero]
  unfold restoreState
  cases hio : io.restore k with
  | true => simp
  | false =>
    simp only [Bool.false_eq_true, if_false, true_and]
    cases hrec : w.singleFileData with
    | absent => simp
    | garbage => simp
    | value s =>
      cases e with
      | commit => simp [endInstaller, commitInstaller]
      | rollback =>
        simp only [Stored.value.injEq, exists_eq_left', true_and, forall_const, endInstaller,
          supportsRollback]
        by_cases hsupport : s.rollbackSupport = true
        · simp only [hsupport, forall_const, if_true, rollbackInstaller, SingleFileData.rollback]
          cases w₁.fs.read s.rollbackFileName with
          | none => simp
          | some backup => cases io.rollback k <;> simp
        · simp [hsupport]

/-- No payload fails exactly when each of them comes through. -/
theorem endHandlers_ok_iff (k : Nat) (types : List Text) (w w₁ : DeviceState R) :
    (∀ failed ∈ (endHandlers dev io e k (restoreHandlersFromStore dev io k types w).1 w₁).1,
      failed = false) ↔
      ∀ i < types.length, PayloadOk dev io e w.singleFileData w₁.fs k types i := by
  induction types generalizing k w w₁ with
  | nil => simp [restoreHandlersFromStore, endHandlers]
  | cons payType types ih =>
    rw [forall_lt_cons]
    rcases payType_cases dev payType with ⟨rfl, hd⟩ | rfl | ⟨hr, hs⟩
    · rcases Option.isSome_iff_exists.mp hd with ⟨d, hd'⟩
      have hfs : (endInstaller dev io e k .rootfs w₁).2.fs = w₁.fs := by
        cases e with
        | commit => exact onRootfs_fs _ w₁
        | rollback =>
          unfold endInstaller
          dsimp only
          split
          · exact onRootfs_fs _ w₁
          · rfl
      have hzero : PayloadOk dev io e w.singleFileData w₁.fs k
          (PayloadType.rootfsImage.name :: types) 0 ↔
          (endInstaller dev io e k .rootfs w₁).1 = false := payloadOk_rootfs hd'
      rw [restore_rootfs hd, endHandlers]
      simp only [List.mem_cons, forall_eq_or_imp, Bool.false_or]
      rw [ih, hfs, hzero]
      simp only [payloadOk_succ singleFile_ne_rootfs.symm]
    · rw [restore_singleFile, endHandlers]
      simp only [List.mem_cons, forall_eq_or_imp, Bool.or_eq_false_iff]
      rw [ih, payloadOk_singleFile rfl]
      constructor
      · rintro ⟨hok, hrest⟩
        refine ⟨hok, fun i hi => ?_⟩
        have habsent : (restoreState (io.restore k) w).2.2.singleFileData = .absent := by
          rw [restoreState_state]
          cases hio : io.restore k with
          | false => rfl
          | true => simp [restoreState, hio] at hok
        have := hrest i hi
        rw [habsent] at this
        exact payloadOk_succ_singleFile.mpr this
      · rintro ⟨hok, hrest⟩
        refine ⟨hok, fun i hi => ?_⟩
        have habsent : (restoreState (io.restore k) w).2.2.singleFileData = .absent := by
          rw [restoreState_state]
          cases hio : io.restore k with
          | false => rfl
          | true => simp [restoreState, hio] at hok
        rw [habsent]
        exact payloadOk_succ_singleFile.mp (hrest i hi)
    · rw [restore_other hr hs, endHandlers]
      simp only [List.mem_cons, forall_eq_or_imp, Bool.false_or, Bool.true_eq_false, false_and,
        false_iff, not_and]
      intro hok
      exfalso
      rcases hok with ⟨ht, d, hd, -⟩ | ⟨ht, -⟩
      · rw [List.getElem?_cons_zero, Option.some.injEq] at ht
        exact hr ⟨ht, by rw [hd]; rfl⟩
      · rw [List.getElem?_cons_zero, Option.some.injEq] at ht
        exact hs ht

end Fails

/-! ## The transaction -/

/-- The state data an ending commits: a rollback has no name to commit. -/
def endData (e : Ending) (stateData : StateData) : StateData :=
  if e = .rollback then { stateData with artifactName := [] } else stateData

theorem endData_commit (stateData : StateData) : endData .commit stateData = stateData := rfl

theorem storeUpdateInDB_fails {stateData : StateData} (h : TxnFails dev io e stateData w) :
    storeUpdateInDB dev io (endData e stateData) w = (some .transaction, w) := by
  unfold storeUpdateInDB
  rcases h with htxn | ⟨rfl, hname, hcommit⟩
  · rw [if_pos htxn]
  · split
    · rfl
    · rw [endData_commit, if_pos hname, hcommit]

theorem storeUpdateInDB_ok {stateData : StateData} (h : ¬ TxnFails dev io e stateData w) :
    (storeUpdateInDB dev io (endData e stateData) w).1 = none := by
  unfold TxnFails at h
  push Not at h
  unfold storeUpdateInDB
  rw [if_neg h.1]
  cases e with
  | rollback => rfl
  | commit =>
    rw [endData_commit]
    split
    · next hname =>
      cases hc : dev.commitArtifactData w.artifactData stateData with
      | none => exact absurd hc (h.2 rfl hname)
      | some a => rfl
    · rfl

theorem storeUpdateInDB_rollback (stateData : StateData) (w : DeviceState R) :
    (storeUpdateInDB dev io (endData .rollback stateData) w).2.artifactData = w.artifactData := by
  unfold storeUpdateInDB
  split <;> rfl

/-! ## All or nothing -/

/-- An ending with a saved update to read, step by step. -/
theorem doEnd_readable (dev : DeviceManager R) (io : CallFaults) (e : Ending)
    {stateData : StateData} (hstate : w.standaloneState = .value stateData)
    (hversion : stateData.version = standaloneStateDataVersion) :
    ∃ w', (doEnd dev io e w).err = (storeUpdateInDB dev io (endData e stateData) w').1 ∧
      (doEnd dev io e w).state = (storeUpdateInDB dev io (endData e stateData) w').2 ∧
      ((∀ failed ∈ (doEnd dev io e w).failed, failed = false) ↔
        ∀ i < stateData.payloadTypes.length,
          PayloadOk dev io e w.singleFileData w.fs 0 stateData.payloadTypes i) ∧
      w'.standaloneState = w.standaloneState ∧ w'.artifactData = w.artifactData ∧
      (w'.singleFileData = w.singleFileData ↔
        ¬ ReadsRecord io w.singleFileData 0 stateData.payloadTypes) := by
  have hrestore : ∃ record, (restoreHandlersFromStore dev io 0 stateData.payloadTypes w).2 =
      { w with singleFileData := record } ∧
      (record = w.singleFileData ∨ record = .absent) ∧
      (record = w.singleFileData ↔ ¬ ReadsRecord io w.singleFileData 0 stateData.payloadTypes) :=
    restoreHandlers_state ..
  rcases hrestore with ⟨record, hw, -, hiff⟩
  have hfailed : _ ↔ ∀ i < stateData.payloadTypes.length,
      PayloadOk dev io e w.singleFileData w.fs 0 stateData.payloadTypes i :=
    endHandlers_ok_iff 0 stateData.payloadTypes w { w with singleFileData := record }
  have hkeys : SameKeys { w with singleFileData := record } (endHandlers dev io e 0
      (restoreHandlersFromStore dev io 0 stateData.payloadTypes w).1
      { w with singleFileData := record }).2 := endHandlers_sameKeys ..
  have hend : doEnd dev io e w =
      ⟨(storeUpdateInDB dev io (endData e stateData) (endHandlers dev io e 0
          (restoreHandlersFromStore dev io 0 stateData.payloadTypes w).1
          { w with singleFileData := record }).2).1,
        (endHandlers dev io e 0 (restoreHandlersFromStore dev io 0 stateData.payloadTypes w).1
          { w with singleFileData := record }).1,
        (storeUpdateInDB dev io (endData e stateData) (endHandlers dev io e 0
          (restoreHandlersFromStore dev io 0 stateData.payloadTypes w).1
          { w with singleFileData := record }).2).2⟩ := by
    have hdata : restoreHandlerData dev io w =
        .ok (stateData, restoreHandlersFromStore dev io 0 stateData.payloadTypes w) := by
      unfold restoreHandlerData
      rw [hstate]
      exact if_neg (fun hne => hne hversion)
    unfold doEnd
    rw [hdata]
    dsimp only
    rw [hw]
    rfl
  rw [hend]
  exact ⟨_, rfl, rfl, hfailed, hkeys.standaloneState, hkeys.artifactData,
    by rw [hkeys.singleFileData]; exact hiff⟩

/-- Without a saved update to read nothing happens. -/
theorem doEnd_unreadable (dev : DeviceManager R) (io : CallFaults) (e : Ending)
    (h : ∀ stateData, w.standaloneState = .value stateData →
      stateData.version ≠ standaloneStateDataVersion) :
    (doEnd dev io e w).failed = [] ∧ (doEnd dev io e w).state = w := by
  unfold doEnd restoreHandlerData
  cases hstate : w.standaloneState with
  | absent => exact ⟨rfl, rfl⟩
  | garbage => exact ⟨rfl, rfl⟩
  | value stateData =>
    dsimp only
    rw [if_pos (h stateData hstate)]
    exact ⟨rfl, rfl⟩

/-- **An ending is all or nothing** exactly when no payload of the saved update fails, or the
transaction fails too and no single-file record was read. -/
theorem doEnd_allOrNothing_iff : AllOrNothing dev io e w ↔
    ∀ stateData, w.standaloneState = .value stateData →
      stateData.version = standaloneStateDataVersion →
      (∀ i < stateData.payloadTypes.length,
        PayloadOk dev io e w.singleFileData w.fs 0 stateData.payloadTypes i) ∨
      (TxnFails dev io e stateData w ∧
        ¬ ReadsRecord io w.singleFileData 0 stateData.payloadTypes) := by
  constructor
  · intro h stateData hstate hversion
    rcases doEnd_readable dev io e hstate hversion with
      ⟨w', herr, hst, hfailed, hstand, hart, hrec⟩
    by_cases hok : ∀ i < stateData.payloadTypes.length,
        PayloadOk dev io e w.singleFileData w.fs 0 stateData.payloadTypes i
    · exact .inl hok
    · right
      have hsome : ∃ failed ∈ (doEnd dev io e w).failed, failed = true := by
        by_contra hnone
        push Not at hnone
        exact hok (hfailed.mp fun failed hf => Bool.eq_false_iff.mpr (hnone failed hf))
      rcases h.repeatable hsome with ⟨hne, -, hkept⟩
      have htxn : TxnFails dev io e stateData w' := by
        by_contra hn
        exact hne (herr.trans (storeUpdateInDB_ok hn))
      rw [hst, storeUpdateInDB_fails htxn] at hkept
      refine ⟨?_, hrec.mp hkept⟩
      unfold TxnFails at htxn ⊢
      rwa [hart] at htxn
  · intro h
    by_cases hread : ∃ stateData, w.standaloneState = .value stateData ∧
        stateData.version = standaloneStateDataVersion
    · rcases hread with ⟨stateData, hstate, hversion⟩
      rcases doEnd_readable dev io e hstate hversion with
        ⟨w', herr, hst, hfailed, hstand, hart, hrec⟩
      refine ⟨?_, ?_, ?_⟩
      · rintro rfl
        rw [hst, storeUpdateInDB_rollback, hart]
      all_goals rcases h stateData hstate hversion with hok | ⟨htxn, hrecord⟩
      · exact fun _ => hfailed.mpr hok
      · intro hchanged
        have htxn' : TxnFails dev io e stateData w' := by
          unfold TxnFails at htxn ⊢
          rwa [hart]
        rw [hst, storeUpdateInDB_fails htxn'] at hchanged
        exact absurd hart hchanged
      · rintro ⟨failed, hf, rfl⟩
        exact absurd (hfailed.mpr hok true hf) (by decide)
      · intro _
        have htxn' : TxnFails dev io e stateData w' := by
          unfold TxnFails at htxn ⊢
          rwa [hart]
        rw [herr, hst, storeUpdateInDB_fails htxn']
        exact ⟨nofun, hstand, hrec.mpr hrecord⟩
    · have hun : ∀ stateData, w.standaloneState = .value stateData →
          stateData.version ≠ standaloneStateDataVersion :=
        fun sd hs hv => hread ⟨sd, hs, hv⟩
      rcases doEnd_unreadable dev io e hun with ⟨hnil, hst⟩
      refine ⟨fun _ => by rw [hst], fun hne => absurd (by rw [hst]) hne, ?_⟩
      rintro ⟨failed, hf, -⟩
      rw [hnil] at hf
      cases hf

/-! ### A commit that fails unseen -/

/-- A device whose dual-rootfs operations change nothing. -/
def rootfsDevice : DeviceManager Unit where
  deviceType := "rpi".toList
  dualRootfs := some ⟨fun _ => id, id, id, id, id, true⟩
  loadProvides a := some a.provides
  commitArtifactData a s := some { a with artifactName := s.artifactName }
  elemInSlice := memSlice

/-- Version `v2` of a rootfs image is installed over `v1` and waits for its commit. -/
def pendingRootfs : DeviceState Unit where
  fs := ⟨fun _ => none, fun _ => false, id⟩
  rootfs := ()
  standaloneState := .value ⟨1, "v2".toList, [], [], [], [PayloadType.rootfsImage.name]⟩
  singleFileData := .absent
  artifactData := ⟨"v1".toList, [], []⟩

/-- `CommitUpdate` of the only payload fails: `DoCommit` reports success, names `v2` as installed and
drops the saved update. -/
theorem doCommit_hides_failure :
    ¬ AllOrNothing rootfsDevice { noCallFaults with commit := fun _ => true } .commit
      pendingRootfs := by
  intro h
  have hfailed : ∃ failed ∈ (doEnd rootfsDevice { noCallFaults with commit := fun _ => true } .commit
      pendingRootfs).failed, failed = true := by
    decide
  exact (h.repeatable hfailed).1 (by decide)

end Rdfm.Linux
