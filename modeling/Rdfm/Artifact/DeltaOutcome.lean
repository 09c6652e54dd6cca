import Rdfm.Artifact.DeltaPipeline

/-!
# What comes of making a delta

What is before the two readers and the rest of the engine's program always give the outcome that the
engine has on the two images, as long as no extraction has failed (`Tracks`). An extraction that
fails closes its reader, and one that has a payload file and does not fail closes its writer, so that
the engine waits in vain only for the image of an artifact without a payload file.
-/

namespace Rdfm.Artifact

open Rdfm.Lib
open Linux (DeltaFile deltaName artifactDelta EngineLib)

namespace DeltaRun

open Extraction

/-! ## The steps -/

/-- What a step of the goroutine of the delta does. -/
inductive PatchStep (d : DeltaCall) (s : DeltaRun) : DeltaRun → Prop
  | created (hphase : s.patch = .creating) (h : d.createTemp = true) :
      PatchStep d s { s with patch := .running d.delta }
  | notCreated (hphase : s.patch = .creating) (h : d.createTemp = false) :
      PatchStep d s { s with patch := .closing deferred none }
  | read {i : Image} {n : ℕ} {k : ReadResult UInt8 → Reading Image UInt8 (Option Bytes)}
      {r : ReadResult UInt8} {pipe : Pipe UInt8} (hphase : s.patch = .running (.read i n k))
      (h : (s.extraction i).pipe.read n = some (r, pipe)) :
      PatchStep d s { s.setExtraction i { s.extraction i with pipe } with patch := .running (k r) }
  | failed (hphase : s.patch = .running (.done none)) :
      PatchStep d s { s with patch := .closing deferred none }
  | wrote {out : Bytes} (hphase : s.patch = .running (.done (some out))) :
      PatchStep d s { s with patch := .naming out }
  | named {out : Bytes} (hphase : s.patch = .naming out) :
      PatchStep d s
        { s with patch := .moving ⟨deltaName d.tmp (s.extraction .base).fileSize d.engine, out⟩ }
  | renamed {f : DeltaFile} (hphase : s.patch = .moving f) (h : d.rename = true) :
      PatchStep d s { s with patch := .closing deferred (some f) }
  | notRenamed {f : DeltaFile} (hphase : s.patch = .moving f) (h : d.rename = false) :
      PatchStep d s { s with patch := .closing deferred none }
  | closed {c : Closer} {todo : List Closer} {file : Option DeltaFile}
      (hphase : s.patch = .closing (c :: todo) file) :
      PatchStep d s { s.close c with patch := .closing todo file }
  | returned {file : Option DeltaFile} (hphase : s.patch = .closing [] file) :
      PatchStep d s { s with patch := .returned file }

/-- What is before the readers. -/
def sources (d : DeltaCall) (s : DeltaRun) (i : Image) : Source UInt8 :=
  (s.extraction i).source (d.image i)

/-- What a deferred call closes is closed. -/
def Closed (s : DeltaRun) : Closer → Prop
  | .artifact i => (s.extraction i).artifactClosed = true
  | .reader i => (s.extraction i).pipe.readerClosed = true

section Steps

variable {d : DeltaCall} {hits : Bool} {s s' : DeltaRun}

theorem patch_step (h : s.patchStep d = some s') : PatchStep d s s' := by
  unfold patchStep at h
  split at h
  · next hphase =>
    cases h
    split
    · next htemp => exact .created hphase htemp
    · next htemp => exact .notCreated hphase (by simpa using htemp)
  · next hphase =>
    split at h
    · cases h
    · next hread =>
      cases h
      exact .read hphase hread
  · next hphase =>
    cases h
    exact .failed hphase
  · next hphase =>
    cases h
    exact .wrote hphase
  · next hphase =>
    cases h
    exact .named hphase
  · next hphase =>
    cases h
    split
    · next hrename => exact .renamed hphase hrename
    · next hrename => exact .notRenamed hphase (by simpa using hrename)
  · next hphase =>
    cases h
    exact .closed hphase
  · next hphase =>
    cases h
    exact .returned hphase
  · cases h

/-- A step is one of an extraction, or one of the goroutine of the delta. -/
theorem Step.cases (h : Step d hits s s') :
    (∃ i hit x, (hit = true → hits = true) ∧
      ExtractStep (d.image i) (hit && (s.extraction i).artifactClosed) (s.extraction i) x ∧
      s' = s.setExtraction i x) ∨ PatchStep d s s' := by
  rcases h with ⟨i, hit, hhits, h⟩ | h
  · rw [next, Option.map_eq_some_iff] at h
    obtain ⟨x, hx, rfl⟩ := h
    exact .inl ⟨i, hit, x, hhits, extractStep hx, rfl⟩
  · exact .inr (patch_step h)

@[simp] theorem close_patch (s : DeltaRun) (c : Closer) : (s.close c).patch = s.patch := by
  cases c <;> rfl

/-- Closing changes nothing else. -/
theorem close_extraction (s : DeltaRun) (c : Closer) (i : Image) :
    ((s.close c).extraction i).phase = (s.extraction i).phase ∧
      ((s.close c).extraction i).fileSize = (s.extraction i).fileSize ∧
      ((s.close c).extraction i).pipe.writer = (s.extraction i).pipe.writer ∧
      ((s.close c).extraction i).pipe.pending = (s.extraction i).pipe.pending := by
  cases c with
  | artifact j | reader j =>
    by_cases hij : i = j
    · subst hij
      simp [close]
    · simp [close, setExtraction_of_ne _ _ hij]

theorem closed_close (s : DeltaRun) (c c' : Closer) :
    (s.close c).Closed c' ↔ c' = c ∨ s.Closed c' := by
  cases c with
  | artifact i =>
    cases c' with
    | artifact j =>
      by_cases hij : j = i
      · subst hij
        simp [Closed, close]
      · simp [Closed, close, setExtraction_of_ne _ _ hij, hij]
    | reader j =>
      by_cases hij : j = i
      · subst hij
        simp [Closed, close]
      · simp [Closed, close, setExtraction_of_ne _ _ hij]
  | reader i =>
    cases c' with
    | artifact j =>
      by_cases hij : j = i
      · subst hij
        simp [Closed, close]
      · simp [Closed, close, setExtraction_of_ne _ _ hij]
    | reader j =>
      by_cases hij : j = i
      · subst hij
        simp [Closed, close]
      · simp [Closed, close, setExtraction_of_ne _ _ hij, hij]

theorem closed_extract {i : Image} {hit : Bool} {x : Extraction}
    (hstep : ExtractStep (d.image i) hit (s.extraction i) x) {c : Closer} (h : s.Closed c) :
    (s.setExtraction i x).Closed c := by
  have hartifact : (s.extraction i).artifactClosed = true → x.artifactClosed = true := by
    intro hclosed
    cases hstep with
    | closeArtifact => rfl
    | start | skip | unreadable | write | stored | failed | size | close | verified | unverified
      | closeReader => exact hclosed
  have hreader : (s.extraction i).pipe.readerClosed = true → x.pipe.readerClosed = true := by
    intro hclosed
    cases hstep with
    | closeReader => rfl
    | start | skip | unreadable | write | stored | failed | size | close | verified | unverified
      | closeArtifact => exact hclosed
  cases c with
  | artifact j =>
    by_cases hij : j = i
    · subst hij
      simpa [Closed] using hartifact h
    · simpa [Closed, setExtraction_of_ne _ _ hij] using h
  | reader j =>
    by_cases hij : j = i
    · subst hij
      simpa [Closed] using hreader h
    · simpa [Closed, setExtraction_of_ne _ _ hij] using h

end Steps

/-! ## The invariant -/

/-- The engine wrote `out`, and the writers that it saw the end of have closed their ends. -/
structure Wrote (d : DeltaCall) (s : DeltaRun) (out : Bytes) : Prop where
  createTemp : d.createTemp = true
  run : d.delta.run d.sources = some out
  met : ∀ i, d.delta.meetsEnd i d.sources = true → (s.extraction i).pipe.writer ≠ none

/-- The name of the file has the size of the base, if the engine read that to its end. -/
def Named (d : DeltaCall) (f : DeltaFile) : Prop :=
  d.delta.meetsEnd .base d.sources = true →
    f.name = deltaName d.tmp (d.image .base).size d.engine

/-- How far the goroutine of the delta is, seen from the outcome of the engine on the images. -/
def Tracks (d : DeltaCall) (s : DeltaRun) : Prop :=
  match s.patch with
  | .creating => s.sources d = d.sources
  | .running p =>
    d.createTemp = true ∧ p.run (s.sources d) = d.delta.run d.sources ∧
      ∀ i, d.delta.meetsEnd i d.sources = true →
        (s.extraction i).pipe.writer ≠ none ∨ p.meetsEnd i (s.sources d) = true
  | .naming out => Wrote d s out
  | .moving f => Wrote d s f.data ∧ Named d f
  | .closing _ (some f) | .returned (some f) => Wrote d s f.data ∧ Named d f ∧ d.rename = true
  | .closing _ none | .returned none =>
    d.createTemp = false ∨ d.rename = false ∨ d.delta.run d.sources = none

/-- The deferred calls are still to come. -/
def Working (s : DeltaRun) : Prop :=
  match s.patch with
  | .closing _ _ | .returned _ => False
  | _ => True

/-- Each deferred call has been made, or is still to come. -/
def Deferred (s : DeltaRun) : Prop :=
  match s.patch with
  | .closing todo _ => ∀ c, c ∈ todo ∨ s.Closed c
  | .returned _ => ∀ c, s.Closed c
  | _ => True

structure Inv (d : DeltaCall) (s : DeltaRun) : Prop where
  sound : ∀ i, Sound (d.image i) (s.extraction i)
  open' : s.Working → ∀ i, ¬ (s.extraction i).Failed → (s.extraction i).pipe.readerClosed = false
  tracks : (∀ i, ¬ (s.extraction i).Failed) → s.Tracks d
  deferred : s.Deferred

section Inv

variable {d : DeltaCall} {hits : Bool} {s s' : DeltaRun}

theorem mem_deferred (c : Closer) : c ∈ Artifact.deferred := by
  cases c with
  | artifact i | reader i => cases i <;> decide

theorem inv_init : Inv d init where
  sound _ := sound_init
  open' _ _ _ := rfl
  tracks _ := rfl
  deferred := trivial

theorem Wrote.congr {out : Bytes} (h : Wrote d s out)
    (hwriter : ∀ i, (s.extraction i).pipe.writer ≠ none → (s'.extraction i).pipe.writer ≠ none) :
    Wrote d s' out :=
  ⟨h.createTemp, h.run, fun i hi => hwriter i (h.met i hi)⟩

theorem Tracks.congr (h : s.Tracks d) (hpatch : s'.patch = s.patch)
    (hsources : s'.sources d = s.sources d)
    (hwriter : ∀ i, (s.extraction i).pipe.writer ≠ none → (s'.extraction i).pipe.writer ≠ none) :
    s'.Tracks d := by
  unfold Tracks at h ⊢
  rw [hpatch, hsources]
  cases hphase : s.patch with
  | creating =>
    rw [hphase] at h
    exact h
  | running p =>
    rw [hphase] at h
    exact ⟨h.1, h.2.1, fun i hi => (h.2.2 i hi).imp_left (hwriter i)⟩
  | naming out =>
    rw [hphase] at h
    exact h.congr hwriter
  | moving f =>
    rw [hphase] at h
    exact ⟨h.1.congr hwriter, h.2⟩
  | closing todo file | returned file =>
    rw [hphase] at h
    cases file with
    | none => exact h
    | some f => exact ⟨h.1.congr hwriter, h.2⟩

/-- A step of an extraction. -/
theorem Inv.extract (h : Inv d s) {i : Image} {hit : Bool} {x : Extraction}
    (hstep : ExtractStep (d.image i) hit (s.extraction i) x) : Inv d (s.setExtraction i x) := by
  refine ⟨fun j => ?_, fun hworking j hfailed => ?_, fun hfailed => ?_, ?_⟩
  · by_cases hij : j = i
    · subst hij
      rw [setExtraction_self]
      exact (h.sound j).extract hstep
    · rw [setExtraction_of_ne _ _ hij]
      exact h.sound j
  · by_cases hij : j = i
    · subst hij
      rw [setExtraction_self] at hfailed ⊢
      obtain ⟨hnot, -, -, hreader⟩ := source_extract hstep hfailed
      rw [hreader]
      exact h.open' hworking j hnot
    · rw [setExtraction_of_ne _ _ hij] at hfailed ⊢
      exact h.open' hworking j hfailed
  · have hself := hfailed i
    rw [setExtraction_self] at hself
    obtain ⟨hnot, hsource, hwriter, -⟩ := source_extract hstep hself
    have hall (j : Image) : ¬ (s.extraction j).Failed := by
      by_cases hij : j = i
      · subst hij
        exact hnot
      · have := hfailed j
        rwa [setExtraction_of_ne _ _ hij] at this
    refine (h.tracks hall).congr rfl ?_ fun j => ?_
    · funext j
      unfold sources
      by_cases hij : j = i
      · subst hij
        rw [setExtraction_self, hsource]
      · rw [setExtraction_of_ne _ _ hij]
    · by_cases hij : j = i
      · subst hij
        rw [setExtraction_self]
        exact hwriter
      · rw [setExtraction_of_ne _ _ hij]
        exact id
  · have hdeferred := h.deferred
    unfold Deferred at hdeferred ⊢
    rw [setExtraction_patch]
    cases hphase : s.patch with
    | creating | running | naming | moving => trivial
    | closing todo file =>
      rw [hphase] at hdeferred
      exact fun c => (hdeferred c).imp_right (closed_extract hstep)
    | returned file =>
      rw [hphase] at hdeferred
      exact fun c => closed_extract hstep (hdeferred c)

/-- The answer of a read, and what it leaves. -/
theorem Inv.read (h : Inv d s) {i : Image} {n : ℕ}
    {k : ReadResult UInt8 → Reading Image UInt8 (Option Bytes)} {r : ReadResult UInt8}
    {pipe : Pipe UInt8} (hphase : s.patch = .running (.read i n k))
    (hread : (s.extraction i).pipe.read n = some (r, pipe)) :
    Inv d { s.setExtraction i { s.extraction i with pipe } with patch := .running (k r) } := by
  obtain ⟨hwriter, hreader, hpending⟩ := Pipe.read_ends hread
  have hworking : s.Working := by
    unfold Working
    rw [hphase]
    trivial
  refine ⟨fun j => ?_, fun _ j hfailed => ?_, fun hfailed => ?_, trivial⟩
  · by_cases hij : j = i
    · subst hij
      rw [setExtraction_self]
      exact (h.sound j).congr rfl rfl hwriter hpending fun hclosed => hreader.trans hclosed
    · rw [setExtraction_of_ne _ _ hij]
      exact h.sound j
  · by_cases hij : j = i
    · subst hij
      rw [setExtraction_self] at hfailed ⊢
      exact hreader.trans (h.open' hworking j hfailed)
    · rw [setExtraction_of_ne _ _ hij] at hfailed ⊢
      exact h.open' hworking j hfailed
  · have hall (j : Image) : ¬ (s.extraction j).Failed := by
      have := hfailed j
      by_cases hij : j = i
      · subst hij
        rwa [setExtraction_self] at this
      · rwa [setExtraction_of_ne _ _ hij] at this
    have hopen := h.open' hworking i (hall i)
    have hsource := Pipe.read_source hopen ((h.sound i).faithful (hall i)) hread
    have hsources : sources d { s.setExtraction i { s.extraction i with pipe } with
        patch := .running (k r) } =
        Function.update (s.sources d) i ((s.sources d i).read n).2 := by
      funext j
      unfold sources
      by_cases hij : j = i
      · subst hij
        rw [Function.update_self, setExtraction_self]
        unfold Extraction.source
        rw [hsource]
        rfl
      · rw [Function.update_of_ne hij, setExtraction_of_ne _ _ hij]
    have hr : ((s.sources d i).read n).1 = r := by
      unfold sources Extraction.source
      rw [hsource]
    have htracks := h.tracks hall
    unfold Tracks at htracks ⊢
    rw [hphase] at htracks
    obtain ⟨htemp, hrun, hmet⟩ := htracks
    dsimp only
    rw [hsources]
    refine ⟨htemp, ?_, fun j hj => ?_⟩
    · rw [← hrun, Reading.run, hr]
    · have hkept : (s.extraction j).pipe.writer ≠ none →
          ((s.setExtraction i { s.extraction i with pipe }).extraction j).pipe.writer ≠ none := by
        by_cases hij : j = i
        · subst hij
          rw [setExtraction_self]
          exact fun hne => hwriter.symm ▸ hne
        · rw [setExtraction_of_ne _ _ hij]
          exact id
      rcases hmet j hj with hclosed | hmeets
      · exact .inl (hkept hclosed)
      · rw [Reading.meetsEnd, Bool.or_eq_true, Bool.and_eq_true, decide_eq_true_eq, hr] at hmeets
        rcases hmeets with ⟨rfl, hempty⟩ | hmeets
        · -- this read saw the end
          exact .inl (hkept (Pipe.writer_of_read hopen (List.isEmpty_iff.mp hempty) hread))
        · exact .inr hmeets

/-- A step of the goroutine of the delta. -/
theorem Inv.patch (h : Inv d s) (hstep : PatchStep d s s') : Inv d s' := by
  have hworking (hne : s.Working) := h.open' hne
  cases hstep with
  | created hphase htemp =>
    refine ⟨h.sound, fun _ => hworking (by unfold Working; rw [hphase]; trivial), fun hfailed => ?_,
      trivial⟩
    have htracks := h.tracks hfailed
    unfold Tracks at htracks
    rw [hphase] at htracks
    change d.createTemp = true ∧ d.delta.run (s.sources d) = _ ∧
      ∀ i, _ → _ ∨ d.delta.meetsEnd i (s.sources d) = true
    rw [htracks]
    exact ⟨htemp, rfl, fun i hi => .inr hi⟩
  | notCreated hphase htemp =>
    exact ⟨h.sound, nofun, fun _ => .inl htemp, fun c => .inl (mem_deferred c)⟩
  | read hphase hread => exact h.read hphase hread
  | failed hphase =>
    refine ⟨h.sound, nofun, fun hfailed => ?_, fun c => .inl (mem_deferred c)⟩
    have htracks := h.tracks hfailed
    unfold Tracks at htracks
    rw [hphase] at htracks
    exact .inr (.inr htracks.2.1.symm)
  | wrote hphase =>
    refine ⟨h.sound, fun _ => hworking (by unfold Working; rw [hphase]; trivial), fun hfailed => ?_,
      trivial⟩
    have htracks := h.tracks hfailed
    unfold Tracks at htracks
    rw [hphase] at htracks
    obtain ⟨htemp, hrun, hmet⟩ := htracks
    refine ⟨htemp, hrun.symm, fun i hi => (hmet i hi).resolve_right ?_⟩
    exact Bool.false_ne_true
  | named hphase =>
    refine ⟨h.sound, fun _ => hworking (by unfold Working; rw [hphase]; trivial), fun hfailed => ?_,
      trivial⟩
    have htracks := h.tracks hfailed
    unfold Tracks at htracks
    rw [hphase] at htracks
    refine ⟨htracks.congr fun i => id, fun hbase => ?_⟩
    have hcomplete := ((h.sound .base).complete (hfailed .base) (htracks.met .base hbase)).1
    rw [hcomplete.fileSize]
  | renamed hphase hrename =>
    refine ⟨h.sound, nofun, fun hfailed => ?_, fun c => .inl (mem_deferred c)⟩
    have htracks := h.tracks hfailed
    unfold Tracks at htracks
    rw [hphase] at htracks
    exact ⟨htracks.1.congr fun i => id, htracks.2, hrename⟩
  | notRenamed hphase hrename =>
    exact ⟨h.sound, nofun, fun _ => .inr (.inl hrename), fun c => .inl (mem_deferred c)⟩
  | @closed c todo file hphase =>
    have hclose := close_extraction s c
    have hfailed (i : Image) : ((s.close c).extraction i).Failed ↔ (s.extraction i).Failed := by
      unfold Failed
      rw [(hclose i).1]
    refine ⟨fun i => ?_, nofun, fun hnone => ?_, fun c' => ?_⟩
    · obtain ⟨hp, hsize, hwriter, hpending⟩ := hclose i
      refine (h.sound i).congr hp hsize hwriter (fun hnone => hpending.trans hnone) fun hclosed => ?_
      exact (closed_close s c (.reader i)).mpr (.inr hclosed)
    · have htracks := h.tracks fun i => mt (hfailed i).mpr (hnone i)
      unfold Tracks at htracks ⊢
      rw [hphase] at htracks
      cases file with
      | none => exact htracks
      | some f =>
        refine ⟨htracks.1.congr fun i hne => ?_, htracks.2⟩
        dsimp only
        rwa [(hclose i).2.2.1]
    · have hdeferred := h.deferred
      unfold Deferred at hdeferred
      rw [hphase] at hdeferred
      have hiff := closed_close s c c'
      rcases hdeferred c' with hmem | hclosed
      · rcases List.mem_cons.mp hmem with rfl | hmem
        · exact .inr (hiff.mpr (.inl rfl))
        · exact .inl hmem
      · exact .inr (hiff.mpr (.inr hclosed))
  | @returned file hphase =>
    refine ⟨h.sound, nofun, fun hfailed => ?_, fun c => ?_⟩
    · have htracks := h.tracks hfailed
      unfold Tracks at htracks ⊢
      rw [hphase] at htracks
      cases file with
      | none => exact htracks
      | some f => exact ⟨htracks.1.congr fun i => id, htracks.2⟩
    · have hdeferred := h.deferred
      unfold Deferred at hdeferred
      rw [hphase] at hdeferred
      exact (hdeferred c).resolve_left List.not_mem_nil

theorem Inv.step (h : Inv d s) (hstep : Step d hits s s') : Inv d s' := by
  rcases hstep.cases with ⟨i, hit, x, -, hx, rfl⟩ | hpatch
  · exact h.extract hx
  · exact h.patch hpatch

theorem inv_of_reachable (h : Reachable d hits s) : Inv d s := by
  induction h with
  | refl => exact inv_init
  | tail _ hstep ih => exact ih.step hstep

end Inv

end DeltaRun

/-! ## The outcome -/

/-- Nothing is wrong with a call, and the engine makes `out` of the two images. -/
structure DeltaCall.Good (d : DeltaCall) (out : Bytes) : Prop where
  createTemp : d.createTemp = true
  rename : d.rename = true
  intact : ∀ i, (d.image i).Intact
  run : d.delta.run d.sources = some out

/-- The file of a delta. -/
def DeltaCall.file (d : DeltaCall) (out : Bytes) : DeltaFile :=
  ⟨deltaName d.tmp (d.image .base).size d.engine, out⟩

/-- The file is the one that the sequential model of the tool makes. -/
theorem DeltaCall.file_eq_artifactDelta (d : DeltaCall) (lib : Linux.DeltaEngine → EngineLib) :
    d.file ((lib d.engine).delta (d.image .base).content (d.image .target).content) =
      artifactDelta lib d.engine d.tmp (d.image .base).content (d.image .target).content := rfl

namespace DeltaRun

open Extraction

section Outcome

variable {d : DeltaCall} {hits : Bool} {s s' : DeltaRun} {out : Bytes}

theorem not_failed_of_returned {x : Extraction} (h : x.phase = .returned true) : ¬ x.Failed := by
  simp [Failed, h]

theorem result_eq_some {file : Option DeltaFile} (h : s.result = some file) :
    ∃ base target file', (s.extraction .base).phase = .returned base ∧
      (s.extraction .target).phase = .returned target ∧ s.patch = .returned file' ∧
      file = if base && target then file' else none := by
  unfold result at h
  split at h
  · next hbase htarget hpatch =>
    cases h
    exact ⟨_, _, _, hbase, htarget, hpatch, rfl⟩
  · cases h

/-- A file that is returned is the engine's, of two artifacts that nothing is wrong with, if it reads
both images to their ends. -/
theorem Inv.good (h : Inv d s) (hends : ∀ i, d.delta.meetsEnd i d.sources = true) {f : DeltaFile}
    (hresult : s.result = some (some f)) : d.Good f.data ∧ Named d f := by
  obtain ⟨base, target, file, hbase, htarget, hpatch, hfile⟩ := result_eq_some hresult
  have hok : base = true ∧ target = true := by
    rw [← Bool.and_eq_true]
    by_contra hnot
    rw [if_neg hnot] at hfile
    cases hfile
  obtain ⟨rfl, rfl⟩ := hok
  simp only [Bool.and_self, if_true] at hfile
  subst hfile
  have hreturned (i : Image) : (s.extraction i).phase = .returned true := by
    cases i with
    | base => exact hbase
    | target => exact htarget
  have htracks := h.tracks fun i => not_failed_of_returned (hreturned i)
  unfold Tracks at htracks
  rw [hpatch] at htracks
  obtain ⟨hwrote, hnamed, hrename⟩ := htracks
  refine ⟨⟨hwrote.createTemp, hrename, fun i => ?_, hwrote.run⟩, hnamed⟩
  have hcomplete := ((h.sound i).complete (not_failed_of_returned (hreturned i))
    (hwrote.met i (hends i))).1
  have hsound := h.sound i
  unfold Sound at hsound
  rw [hreturned i] at hsound
  exact ⟨hcomplete.header, hcomplete.payload, hcomplete.short, hsound.2⟩

/-- Once the deferred calls begin, a delta that nothing is wrong with is written, and the writers
are closed. -/
theorem Inv.written (h : Inv d s) (hgood : d.Good out)
    (hends : ∀ i, d.delta.meetsEnd i d.sources = true) (hfailed : ∀ i, ¬ (s.extraction i).Failed)
    (hworking : ¬ s.Working) :
    (∀ i, (s.extraction i).pipe.writer ≠ none) ∧ s.patch ≠ .returned none := by
  have htracks := h.tracks hfailed
  have hnone : ¬ (d.createTemp = false ∨ d.rename = false ∨ d.delta.run d.sources = none) := by
    simp [hgood.createTemp, hgood.rename, hgood.run]
  unfold Working at hworking
  unfold Tracks at htracks
  cases hpatch : s.patch with
  | creating | running | naming | moving => simp [hpatch] at hworking
  | closing todo file | returned file =>
    rw [hpatch] at htracks
    cases file with
    | none => exact (hnone htracks).elim
    | some f => exact ⟨fun i => htracks.1.met i (hends i), by simp⟩

theorem phase_patch (hstep : PatchStep d s s') (i : Image) :
    (s'.extraction i).phase = (s.extraction i).phase := by
  cases hstep with
  | created | notCreated | failed | wrote | named | renamed | notRenamed | returned => rfl
  | @read j =>
    by_cases hij : i = j
    · subst hij
      rw [setExtraction_self]
    · rw [setExtraction_of_ne _ _ hij]
  | closed => exact (close_extraction _ _ i).1

/-- If nothing is wrong, no extraction fails but by a read of its closed artifact. -/
theorem Inv.healthy (h : Inv d s) (hgood : d.Good out)
    (hends : ∀ i, d.delta.meetsEnd i d.sources = true) (hfailed : ∀ i, ¬ (s.extraction i).Failed)
    (hstep : Step d false s s') (i : Image) : ¬ (s'.extraction i).Failed := by
  rcases hstep.cases with ⟨j, hit, x, hhit, hx, rfl⟩ | hpatch
  · by_cases hij : i = j
    · subst hij
      rw [setExtraction_self]
      intro hfails
      have hfalse : hit = false := Bool.eq_false_iff.mpr fun htrue => Bool.false_ne_true (hhit htrue)
      rw [hfalse, Bool.false_and] at hx
      obtain ⟨hclosed, todo, hphase⟩ := failed_extract hx (hgood.intact i) (hfailed i) hfails
      have hworking : ¬ s.Working := by
        intro hworking
        rw [h.open' hworking i (hfailed i)] at hclosed
        cases hclosed
      have hsound := h.sound i
      unfold Sound at hsound
      rw [hphase] at hsound
      exact (h.written hgood hends hfailed hworking).1 i hsound.2
    · rw [setExtraction_of_ne _ _ hij]
      exact hfailed i
  · unfold Failed
    rw [phase_patch hpatch i]
    exact hfailed i

theorem healthy_of_reachable (hgood : d.Good out)
    (hends : ∀ i, d.delta.meetsEnd i d.sources = true) (h : Reachable d false s) (i : Image) :
    ¬ (s.extraction i).Failed := by
  induction h generalizing i with
  | refl => simp [init, Extraction.init, Failed]
  | tail hreach hstep ih => exact (inv_of_reachable hreach).healthy hgood hends ih hstep i

theorem Inv.result_of_healthy (h : Inv d s) (hgood : d.Good out)
    (hends : ∀ i, d.delta.meetsEnd i d.sources = true) (hfailed : ∀ i, ¬ (s.extraction i).Failed)
    {file : Option DeltaFile} (hresult : s.result = some file) : file ≠ none := by
  obtain ⟨base, target, file, hbase, htarget, hpatch, rfl⟩ := result_eq_some hresult
  have hok {x : Extraction} {ok : Bool} (hphase : x.phase = .returned ok) (hx : ¬ x.Failed) :
      ok = true := by
    cases ok with
    | true => rfl
    | false => exact (hx (.inr (.inr hphase))).elim
  rw [hok hbase (hfailed .base), hok htarget (hfailed .target)]
  have hworking : ¬ s.Working := by
    unfold Working
    rw [hpatch]
    exact id
  have hne := (h.written hgood hends hfailed hworking).2
  rw [hpatch] at hne
  intro hnone
  exact hne (by rw [← hnone]; rfl)

/-! ## Ends -/

/-- The engine waits for the image of an artifact without a payload file, whose extraction has
returned. -/
def Starves (d : DeltaCall) (s : DeltaRun) : Prop :=
  ∃ i n k, s.patch = .running (.read i n k) ∧ (d.image i).payload = none ∧
    (s.extraction i).phase = .returned true

/-- As long as the goroutine of the delta has not returned, it has a step, or an extraction has one
that has not yet closed its writer, or it waits in vain. -/
theorem Inv.progress (h : Inv d s) (hpatch : ∀ file, s.patch ≠ .returned file) :
    (∃ s', s.patchStep d = some s') ∨
      (∃ i x, (s.extraction i).pipe.writer = none ∧
        (s.extraction i).extract (d.image i) false = some x) ∨ s.Starves d := by
  unfold patchStep
  cases hphase : s.patch with
  | creating | naming | moving => exact .inl ⟨_, rfl⟩
  | running p =>
    cases p with
    | done r => cases r <;> exact .inl ⟨_, rfl⟩
    | read i n k =>
      cases hread : (s.extraction i).pipe.read n with
      | some answer =>
        dsimp only
        rw [hread]
        exact .inl ⟨_, rfl⟩
      | none =>
        -- the read waits for its writer
        have hwaits : ¬ ((s.extraction i).pipe.readerClosed = true ∨
            (s.extraction i).pipe.writer ≠ none ∨ (s.extraction i).pipe.pending ≠ none) := by
          intro hready
          obtain ⟨r, pipe, hsome⟩ := Pipe.read_isSome (n := n) hready
          rw [hread] at hsome
          cases hsome
        simp only [not_or, ne_eq, not_not] at hwaits
        obtain ⟨hopen, hwriter, hpending⟩ := hwaits
        refine .inr ?_
        have hmoves := extract_isSome (.inl hpending)
        rcases hmoves (d.image i) false with ⟨ok, hreturned⟩ | ⟨x, hx⟩
        · have hsound := h.sound i
          unfold Sound at hsound
          rw [hreturned] at hsound
          cases ok with
          | true =>
            rcases hsound.1 with hcomplete | hskipped
            · rw [hcomplete.writer] at hwriter
              cases hwriter
            · exact .inr ⟨i, n, k, hphase, hskipped.payload, hreturned⟩
          | false => exact (hopen hsound).elim
        · exact .inl ⟨i, x, hwriter, hx⟩
  | closing todo file => cases todo <;> exact .inl ⟨_, rfl⟩
  | returned file => exact (hpatch file hphase).elim

/-- Where no goroutine has a step, all have returned, or the engine waits in vain. -/
theorem Inv.result_of_stuck (h : Inv d s) (hstuck : ∀ s', ¬ Step d hits s s') :
    s.result ≠ none ∨ s.Starves d := by
  have hextract (i : Image) : (s.extraction i).extract (d.image i) false = none := by
    rw [Option.eq_none_iff_forall_ne_some]
    intro x hx
    refine hstuck (s.setExtraction i x) (.inl ⟨i, false, nofun, ?_⟩)
    rw [next, hx]
    rfl
  by_cases hpatch : ∃ file, s.patch = .returned file
  · left
    obtain ⟨file, hfile⟩ := hpatch
    have hdeferred := h.deferred
    unfold Deferred at hdeferred
    rw [hfile] at hdeferred
    have hreturned (i : Image) : ∃ ok, (s.extraction i).phase = .returned ok := by
      have hmoves := extract_isSome (.inr (hdeferred (.reader i)))
      rcases hmoves (d.image i) false with hok | ⟨x, hx⟩
      · exact hok
      · rw [hextract i] at hx
        cases hx
    obtain ⟨base, hbase⟩ := hreturned .base
    obtain ⟨target, htarget⟩ := hreturned .target
    unfold result
    rw [hbase, htarget, hfile]
    exact Option.some_ne_none _
  · rw [not_exists] at hpatch
    rcases h.progress hpatch with ⟨s', hs'⟩ | ⟨i, x, -, hx⟩ | hstarves
    · exact (hstuck s' (.inr hs')).elim
    · rw [hextract i] at hx
      cases hx
    · exact .inr hstarves

/-- The steps that the extractions have left. -/
def lefts (d : DeltaCall) (s : DeltaRun) : ℕ :=
  (s.extraction .base).left (d.image .base) + (s.extraction .target).left (d.image .target)

theorem lefts_extract {i : Image} {hit : Bool} {x : Extraction}
    (hstep : ExtractStep (d.image i) hit (s.extraction i) x) :
    (s.setExtraction i x).lefts d < s.lefts d := by
  have hlt := left_extract hstep
  unfold lefts
  cases i with
  | base =>
    rw [setExtraction_self, setExtraction_of_ne _ _ (by decide)]
    omega
  | target =>
    rw [setExtraction_self, setExtraction_of_ne _ _ (by decide)]
    omega

theorem lefts_close (s : DeltaRun) (c : Closer) : (s.close c).lefts d = s.lefts d := by
  have hleft (i : Image) : ((s.close c).extraction i).left (d.image i) =
      (s.extraction i).left (d.image i) := by
    obtain ⟨hphase, -, -, hpending⟩ := close_extraction s c i
    unfold left
    rw [hphase, hpending]
  unfold lefts
  rw [hleft, hleft]

/-- The steps of the goroutine of the delta, once the engine has returned. -/
def PatchPhase.left : PatchPhase → ℕ
  | .creating | .running _ => 0
  | .naming _ => 7
  | .moving _ => 6
  | .closing todo _ => todo.length + 1
  | .returned _ => 0

/-- The engine has returned. -/
def Ran (s : DeltaRun) : Prop := s.patch ≠ .creating ∧ ∀ p, s.patch ≠ .running p

theorem acc_of_ran (h : s.Ran) : Acc (fun s' s => Step d hits s s') s := by
  refine acc_of_measure (P := Ran) (fun s => s.lefts d + PatchPhase.left s.patch)
    (fun s s' hran hstep => .inl ?_) h
  rcases hstep.cases with ⟨i, hit, x, -, hx, rfl⟩ | hpatch
  · refine ⟨hran, ?_⟩
    have := lefts_extract hx
    rw [setExtraction_patch]
    omega
  · cases hpatch with
    | created hphase | notCreated hphase => exact (hran.1 hphase).elim
    | read hphase | failed hphase | wrote hphase => exact (hran.2 _ hphase).elim
    | named hphase =>
      refine ⟨⟨nofun, nofun⟩, ?_⟩
      rw [hphase]
      exact Nat.lt_succ_self _
    | renamed hphase | notRenamed hphase =>
      refine ⟨⟨nofun, nofun⟩, ?_⟩
      rw [hphase]
      exact Nat.lt_succ_self _
    | @closed c todo file hphase =>
      refine ⟨⟨nofun, nofun⟩, ?_⟩
      have hclose : lefts d { s.close c with patch := .closing todo file } = s.lefts d :=
        lefts_close s c
      rw [hclose, hphase]
      simp [PatchPhase.left]
    | returned hphase =>
      refine ⟨⟨nofun, nofun⟩, ?_⟩
      rw [hphase]
      exact Nat.lt_succ_self _

theorem acc_of_running (p : Reading Image UInt8 (Option Bytes)) (h : s.patch = .running p) :
    Acc (fun s' s => Step d hits s s') s := by
  have hrule := @Reading.acc _ _ _ _ (Step d hits) s (fun s p => s.patch = .running p) (lefts d)
  refine hrule (fun s s' p hat hstep => ?_) p h
  rcases hstep.cases with ⟨i, hit, x, -, hx, rfl⟩ | hpatch
  · exact .inl ⟨hat, lefts_extract hx⟩
  · cases hpatch with
    | @read i n k r pipe hphase =>
      rw [hphase] at hat
      cases hat
      exact .inr (.inl ⟨i, n, k, r, rfl, rfl⟩)
    | failed | wrote => exact .inr (.inr (acc_of_ran ⟨nofun, nofun⟩))
    | created hphase | notCreated hphase | named hphase | renamed hphase | notRenamed hphase
      | closed hphase | returned hphase =>
      rw [hphase] at hat
      cases hat

theorem acc_init : Acc (fun s' s => Step d hits s s') init := by
  refine acc_of_measure (P := fun s => s.patch = .creating) (lefts d) (fun s s' hat hstep => ?_) rfl
  rcases hstep.cases with ⟨i, hit, x, -, hx, rfl⟩ | hpatch
  · exact .inl ⟨hat, lefts_extract hx⟩
  · cases hpatch with
    | created => exact .inr (acc_of_running _ rfl)
    | notCreated => exact .inr (acc_of_ran ⟨nofun, nofun⟩)
    | read hphase | failed hphase | wrote hphase | named hphase | renamed hphase | notRenamed hphase
      | closed hphase | returned hphase =>
      rw [hphase] at hat
      cases hat

/-- Once the goroutine of the delta has returned, an artifact that is not read to its end may fail. -/
theorem Inv.fails_late (h : Inv d s) (hreach : Reachable d true s) {i : Image}
    (hphase : (s.extraction i).phase = .trailing) {file : Option DeltaFile}
    (hpatch : s.patch = .returned file) :
    ∃ s', Reachable d true s' ∧ (s'.extraction i).phase = .returned false ∧ s'.patch = s.patch := by
  have hclosed : (s.extraction i).artifactClosed = true := by
    have hdeferred := h.deferred
    unfold Deferred at hdeferred
    rw [hpatch] at hdeferred
    exact hdeferred (.artifact i)
  have hstep (s : DeltaRun) {x : Extraction}
      (hx : (s.extraction i).extract (d.image i) true = some x) :
      Step d true s (s.setExtraction i x) := by
    refine .inl ⟨i, true, fun _ => rfl, ?_⟩
    rw [next, hx]
    rfl
  let x₁ : Extraction := { s.extraction i with phase := .failing }
  let x₂ : Extraction := { x₁ with phase := .leaving, artifactClosed := true }
  let x₃ : Extraction :=
    { x₂ with phase := .returned false, pipe := { x₂.pipe with readerClosed := true } }
  have hx₁ : (s.extraction i).extract (d.image i) true = some x₁ := by
    unfold Extraction.extract
    rw [hphase]
    simp [hclosed, x₁]
  have h₁ := hstep s hx₁
  have h₂ := hstep (s.setExtraction i x₁) (x := x₂) (by rw [setExtraction_self]; rfl)
  have h₃ := hstep ((s.setExtraction i x₁).setExtraction i x₂) (x := x₃)
    (by rw [setExtraction_self]; rfl)
  exact ⟨_, ((hreach.tail h₁).tail h₂).tail h₃, by rw [setExtraction_self], rfl⟩

/-- Of intact artifacts, the engine does not wait in vain. -/
theorem not_starves (hintact : ∀ i, (d.image i).Intact) : ¬ s.Starves d := by
  rintro ⟨i, n, k, -, hpayload, -⟩
  exact (hintact i).payload hpayload

/-- There is a step that does not let the extraction of the target return. -/
theorem Inv.waits (h : Inv d s) (hintact : ∀ i, (d.image i).Intact)
    (hpatch : ∀ file, s.patch ≠ .returned file)
    (htarget : (s.extraction .target).phase ≠ .returned true) :
    ∃ s', Step d false s s' ∧ (s'.extraction .target).phase ≠ .returned true := by
  rcases h.progress hpatch with ⟨s', hs'⟩ | ⟨i, x, hwriter, hx⟩ | hstarves
  · exact ⟨s', .inr hs', by rwa [phase_patch (patch_step hs')]⟩
  · refine ⟨s.setExtraction i x, .inl ⟨i, false, nofun, by rw [next, hx]; rfl⟩, ?_⟩
    by_cases hi : Image.target = i
    · subst hi
      rw [setExtraction_self]
      intro hreturned
      have hstep := extractStep hx
      cases hstep with
      | verified hphase =>
        have hsound := h.sound .target
        unfold Sound at hsound
        rw [hphase] at hsound
        rcases hsound with hcomplete | hskipped
        · rw [hcomplete.writer] at hwriter
          cases hwriter
        · exact (hintact .target).payload hskipped.payload
      | start | skip | unreadable | write | stored | failed | size | close | unverified
        | closeArtifact => cases hreturned
      | closeReader => cases hreturned
    · rwa [setExtraction_of_ne _ _ hi]
  · exact (not_starves hintact hstarves).elim

/-- The other extraction returns, too. -/
theorem Inv.finishes (h : Inv d s) (hreach : Reachable d true s) {file : Option DeltaFile}
    (hpatch : s.patch = .returned file) (htarget : (s.extraction .target).phase = .returned false) :
    ∃ s', Reachable d true s' ∧ s'.result = some none := by
  have hacc : Acc (fun s' s => Step d true s s') s := acc_of_ran (by simp [Ran, hpatch])
  induction hacc with
  | intro s _ ih =>
    have hdeferred := h.deferred
    unfold Deferred at hdeferred
    rw [hpatch] at hdeferred
    have hmoves := extract_isSome (.inr (hdeferred (.reader .base)))
    rcases hmoves (d.image .base) false with ⟨ok, hreturned⟩ | ⟨x, hx⟩
    · refine ⟨s, hreach, ?_⟩
      unfold result
      rw [hreturned, htarget, hpatch]
      simp
    · have hstep : Step d true s (s.setExtraction .base x) :=
        .inl ⟨.base, false, nofun, by rw [next, hx]; rfl⟩
      refine ih _ hstep (h.step hstep) (hreach.tail hstep) hpatch ?_
      rwa [setExtraction_of_ne _ _ (by decide)]

theorem exists_result (hintact : ∀ i, (d.image i).Intact) (hits : Bool) :
    ∃ s file, Reachable d hits s ∧ s.result = some file := by
  have hsearch (s : DeltaRun) (hacc : Acc (fun s' s => Step d hits s s') s)
      (hreach : Reachable d hits s) : ∃ s file, Reachable d hits s ∧ s.result = some file := by
    induction hacc with
    | intro s _ ih =>
      by_cases hstuck : ∃ s', Step d hits s s'
      · obtain ⟨s', hstep⟩ := hstuck
        exact ih s' hstep (hreach.tail hstep)
      · rw [not_exists] at hstuck
        have hne := ((inv_of_reachable hreach).result_of_stuck hstuck).resolve_right
          (not_starves hintact)
        obtain ⟨file, hfile⟩ := Option.ne_none_iff_exists'.mp hne
        exact ⟨s, file, hreach, hfile⟩
  exact hsearch init acc_init .refl

end Outcome

/-! ## Results -/

/-- `Delta` returns: no run goes on for ever, and none stops before all goroutines have returned, but
where the engine waits for the image of an artifact without a payload file: its extraction returns
without closing the pipe. -/
theorem delta_returns (d : DeltaCall) (hits : Bool) :
    Acc (fun s' s => Step d hits s s') init ∧
      ∀ s, Reachable d hits s → (∀ s', ¬ Step d hits s s') → s.result ≠ none ∨ s.Starves d :=
  ⟨acc_init, fun _ hreach => (inv_of_reachable hreach).result_of_stuck⟩

/-- What `Delta` returns, when the engine reads both images to their ends: a file only if nothing is
wrong, and the one that the engine makes of the two images, whatever the order of the steps; and no
error then, unless a read of a closed artifact fails. -/
theorem delta_result {d : DeltaCall} (hends : ∀ i, d.delta.meetsEnd i d.sources = true) {hits : Bool}
    {s : DeltaRun} (hreach : Reachable d hits s) {file : Option DeltaFile}
    (hresult : s.result = some file) :
    (∀ f, file = some f → ∃ out, d.Good out ∧ f = d.file out) ∧
      (hits = false → ∀ out, d.Good out → file = some (d.file out)) := by
  have hinv := inv_of_reachable hreach
  have hfile (f : DeltaFile) (hf : file = some f) : d.Good f.data ∧ f = d.file f.data := by
    subst hf
    obtain ⟨hgood, hnamed⟩ := hinv.good hends hresult
    refine ⟨hgood, ?_⟩
    cases f with
    | mk name data =>
      unfold DeltaCall.file
      rw [← hnamed (hends .base)]
  refine ⟨fun f hf => ⟨f.data, hfile f hf⟩, fun hnone out hgood => ?_⟩
  rw [hnone] at hreach
  have hne := hinv.result_of_healthy hgood hends (healthy_of_reachable hgood hends hreach) hresult
  obtain ⟨f, hf⟩ := Option.ne_none_iff_exists'.mp hne
  obtain ⟨hgood', hf'⟩ := hfile f hf
  have hdata : f.data = out := Option.some.inj (hgood'.run.symm.trans hgood.run)
  rw [hf, hf', hdata]

/-- An engine that reads a stream to its end, in pieces of two bytes. -/
def readToEnd (i : Image) (k : Bytes → Reading Image UInt8 (Option Bytes)) :
    ℕ → Bytes → Reading Image UInt8 (Option Bytes)
  | 0, _ => .done none
  | fuel + 1, got =>
    .read i 2 fun
      | .data bs => readToEnd i k fuel (got ++ bs)
      | .ended .eof => k got
      | .ended .error => .done none

/-- A call with an engine that writes the target. -/
def copying : DeltaCall where
  image
    | .base => ⟨true, some ⟨[[1, 2, 3]], none⟩, true⟩
    | .target => ⟨true, some ⟨[[4], [5, 6]], none⟩, true⟩
  engine := .rsync
  delta := readToEnd .base (fun _ => readToEnd .target (fun got => .done (some got)) 5 []) 5 []
  tmp := "/tmp/rootfs-image-delta-1"
  createTemp := true
  rename := true

theorem copying_good : copying.Good [4, 5, 6] :=
  ⟨rfl, rfl, fun i => by cases i <;> exact ⟨rfl, nofun, rfl, rfl⟩, rfl⟩

theorem copying_ends (i : Image) : copying.delta.meetsEnd i copying.sources = true := by
  cases i <;> rfl

theorem delta_result_copying :
    ∃ s, Reachable copying false s ∧ s.result = some (some (copying.file [4, 5, 6])) := by
  obtain ⟨s, file, hreach, hresult⟩ := exists_result copying_good.intact false
  refine ⟨s, hreach, ?_⟩
  rw [hresult, (delta_result copying_ends hreach hresult).2 rfl _ copying_good]

/-- Even if nothing is wrong, `Delta` may fail: its goroutine closes the artifacts when the engine has
returned, and does not wait until they are read to their ends. -/
theorem delta_may_fail {d : DeltaCall} {out : Bytes} (hgood : d.Good out)
    (hends : ∀ i, d.delta.meetsEnd i d.sources = true) :
    ∃ s, Reachable d true s ∧ s.result = some none := by
  have hsearch (s : DeltaRun) (hacc : Acc (fun s' s => Step d false s s') s)
      (hreach : Reachable d false s) (htarget : (s.extraction .target).phase ≠ .returned true) :
      ∃ s, Reachable d true s ∧ s.result = some none := by
    induction hacc with
    | intro s _ ih =>
      have hinv := inv_of_reachable hreach
      have hfailed := healthy_of_reachable hgood hends hreach
      by_cases hpatch : ∃ file, s.patch = .returned file
      · obtain ⟨file, hpatch⟩ := hpatch
        have hworking : ¬ s.Working := by
          unfold Working
          rw [hpatch]
          exact id
        have hwriter := (hinv.written hgood hends hfailed hworking).1 .target
        have hphase := ((hinv.sound .target).complete (hfailed .target) hwriter).2
        have hreach' : Reachable d true s := by
          refine Relation.ReflTransGen.mono (fun _ _ hstep => ?_) _ _ hreach
          exact hstep.imp_left fun ⟨i, hit, _, hnext⟩ => ⟨i, hit, fun _ => rfl, hnext⟩
        obtain ⟨s', hs', hlate, hsame⟩ :=
          hinv.fails_late hreach' (hphase.resolve_right htarget) hpatch
        exact (inv_of_reachable hs').finishes hs' (hsame.trans hpatch) hlate
      · rw [not_exists] at hpatch
        obtain ⟨s', hstep, hs'⟩ := hinv.waits hgood.intact hpatch htarget
        exact ih s' hstep (hreach.tail hstep) hs'
  exact hsearch init acc_init .refl nofun

theorem delta_may_fail_copying : ∃ s, Reachable copying true s ∧ s.result = some none :=
  delta_may_fail copying_good copying_ends

end DeltaRun

end Rdfm.Artifact
