import Rdfm.Lib.Transition
import Mathlib.Logic.Function.Basic

/-!
# The server client that all devices share

Every device and every group of the mcumgr client has an `updateLoop` of its own, and all of them use one
`RdfmClient`. `AuthorizeDevice` clears its token, asks the server for a new one and stores it, and
`UpdateCheck` reads it again for the request that follows. The loops run at the same time. A step of
the system is one read or write of the token by one loop, or one exchange with the server.

An update check carries the token that was issued for it (`Carries`) as long as no other loop writes
the token between its own write and its last read (`Undisturbed`); see `shared_token_iff`.
-/

namespace Rdfm.Mcumgr

open Rdfm.Lib

/-! ## The client -/

/-- How the exchange of `AuthorizeDevice` ends. -/
inductive AuthAnswer where
  /-- The payload cannot be signed. -/
  | unsigned
  | unsent
  /-- A response, with the token of a body that can be decoded. -/
  | response (statusCode : Nat) (status : String) (token : Option String)

/-- How the exchange of `UpdateCheck` ends. -/
inductive CheckAnswer where
  | unsent
  /-- A response, with the update of a body that can be decoded. -/
  | response (statusCode : Nat) (status : String) (update : Option String)

/-- Where an `UpdateCheck` stands: at its next access to the token, or its next exchange. The token
that the server has issued for it is kept to the end, although the code keeps it in the client only. -/
inductive CheckPoint where
  /-- None is under way; the result of the last one. -/
  | idle (last : Option (Except String (Option String)))
  | clearToken
  /-- `newRdfmRequest` for the authorization. -/
  | authLen
  | authToken
  | authorize (authorization : Option String)
  | storeToken (issued : String)
  /-- `newRdfmRequest` for the check. -/
  | checkLen (issued : String)
  | checkToken (issued : String)
  | check (issued : String) (authorization : Option String)

/-- The contents of the header with a token. -/
def bearer (token : String) : String := "Bearer token=" ++ token

/-- `AuthorizeDevice` after its exchange. -/
def authorizeDevice : AuthAnswer → CheckPoint
  | .unsigned => .idle (some (.error "Failed to sign message"))
  | .unsent => .idle (some (.error "Failed to send authorization request"))
  | .response 200 _ (some token) => .storeToken token
  | .response 200 _ none => .idle (some (.error "Failed to decode response body"))
  | .response 401 _ _ => .idle (some (.error "Server did not authorize this device"))
  | .response _ status _ => .idle (some (.error ("Unknown error (" ++ status ++ ")")))

/-- `UpdateCheck` after its exchange. -/
def updateCheck : CheckAnswer → Except String (Option String)
  | .unsent => .error "Failed to send update check request"
  | .response 200 _ (some update) => .ok (some update)
  | .response 200 _ none => .error "Failed to decode response body"
  | .response 204 _ _ => .ok none
  | .response 400 _ _ => .error "Missing device metadata"
  | .response 401 _ _ => .error "Device unauthorized"
  | .response _ status _ => .error ("Unknown error (" ++ status ++ ")")

/-- `RdfmClient` with the update checks of all loops. -/
structure RdfmClient (ι : Type) where
  token : String
  checks : ι → CheckPoint

/-- A step of the loop of a device. -/
inductive LoopEvent (ι : Type) where
  /-- It starts an update check, or reads or writes the token. -/
  | turn (d : ι)
  | authorized (d : ι) (answer : AuthAnswer)
  | checked (d : ι) (answer : CheckAnswer)

namespace RdfmClient

variable {ι : Type} [DecidableEq ι]

/-- `InitClient`. -/
def init (ι : Type) : RdfmClient ι := ⟨"", fun _ => .idle none⟩

variable (rc : RdfmClient ι)

/-- The check of a device moves on, and leaves this token. -/
def move (d : ι) (p : CheckPoint) (token : String) : RdfmClient ι :=
  ⟨token, Function.update rc.checks d p⟩

/-- The next access to the token. -/
def turn (d : ι) : RdfmClient ι :=
  match rc.checks d with
  | .idle _ => rc.move d .clearToken rc.token
  | .clearToken => rc.move d .authLen ""
  | .authLen => rc.move d (if rc.token = "" then .authorize none else .authToken) rc.token
  | .authToken => rc.move d (.authorize (some rc.token)) rc.token
  | .storeToken issued => rc.move d (.checkLen issued) (bearer issued)
  | .checkLen issued =>
    rc.move d (if rc.token = "" then .check issued none else .checkToken issued) rc.token
  | .checkToken issued => rc.move d (.check issued (some rc.token)) rc.token
  | .authorize _ | .check _ _ => rc

def step : LoopEvent ι → RdfmClient ι
  | .turn d => rc.turn d
  | .authorized d answer =>
    match rc.checks d with
    | .authorize _ => rc.move d (authorizeDevice answer) rc.token
    | _ => rc
  | .checked d answer =>
    match rc.checks d with
    | .check _ _ => rc.move d (.idle (some (updateCheck answer))) rc.token
    | _ => rc

@[simp] theorem move_token (d : ι) (p : CheckPoint) (token : String) :
    (rc.move d p token).token = token := rfl

@[simp] theorem move_checks_self (d : ι) (p : CheckPoint) (token : String) :
    (rc.move d p token).checks d = p := by
  simp [move]

theorem move_checks_of_ne {d d' : ι} (h : d' ≠ d) (p : CheckPoint) (token : String) :
    (rc.move d p token).checks d' = rc.checks d' := by
  simp [move, h]

end RdfmClient

/-! ## The property -/

section Property

variable {ι : Type}

/-- The event sends a request to `/api/v1/update/check`, and if so, with its own token. -/
def Carries (rc : RdfmClient ι) : LoopEvent ι → Prop
  | .checked d _ => ∀ issued authorization, rc.checks d = .check issued authorization →
    authorization = some (bearer issued)
  | _ => True

/-- The token issued for a check that has stored it, and the header of its request if it goes on with
the client as it is. -/
def RdfmClient.header (rc : RdfmClient ι) (d : ι) : Option (String × Option String) :=
  match rc.checks d with
  | .checkLen issued => some (issued, if rc.token = "" then none else some rc.token)
  | .checkToken issued => some (issued, some rc.token)
  | .check issued authorization => some (issued, authorization)
  | _ => none

/-- Every check that goes on carries its own token. -/
def RdfmClient.Carried (rc : RdfmClient ι) : Prop :=
  ∀ d issued authorization, rc.header d = some (issued, authorization) →
    authorization = some (bearer issued)

/-- The token of a check that is still to read it. -/
def CheckPoint.reads : CheckPoint → Option String
  | checkLen issued | checkToken issued => some issued
  | _ => none

/-- What a turn writes to the token. -/
def CheckPoint.writes : CheckPoint → Option String
  | clearToken => some ""
  | storeToken issued => some (bearer issued)
  | _ => none

/-- The event does not change the token while another check is still to read its own. -/
def Undisturbed (rc : RdfmClient ι) : LoopEvent ι → Prop
  | .turn d => ∀ token, (rc.checks d).writes = some token →
    ∀ d' ≠ d, ∀ issued, (rc.checks d').reads = some issued → token = bearer issued
  | _ => True

end Property

theorem bearer_ne_empty (token : String) : bearer token ≠ "" := by
  unfold bearer
  simp

/-! ## Steps -/

section Steps

variable {ι : Type} {rc : RdfmClient ι}

/-- The client holds the token of every check that is still to read it, and a check that has read has
its own. -/
theorem RdfmClient.carried_iff : rc.Carried ↔
    (∀ d issued, (rc.checks d).reads = some issued → rc.token = bearer issued) ∧
    ∀ d issued authorization, rc.checks d = .check issued authorization →
      authorization = some (bearer issued) := by
  unfold RdfmClient.Carried RdfmClient.header
  constructor
  · intro h
    refine ⟨fun d issued hreads => ?_, fun d issued authorization hcheck => ?_⟩
    · have hd := h d issued
      cases hpoint : rc.checks d with
      | checkLen issued' =>
        rw [hpoint] at hreads hd
        cases hreads
        have hsome := hd _ rfl
        split at hsome
        · cases hsome
        · exact Option.some.inj hsome
      | checkToken issued' =>
        rw [hpoint] at hreads hd
        cases hreads
        exact Option.some.inj (hd _ rfl)
      | _ =>
        rw [hpoint] at hreads
        cases hreads
    · have hd := h d issued authorization
      rw [hcheck] at hd
      exact hd rfl
  · rintro ⟨hreads, hcheck⟩ d issued authorization hheader
    have hd := hreads d
    cases hpoint : rc.checks d with
    | checkLen issued' =>
      rw [hpoint] at hheader hd
      cases hheader
      have htoken := hd issued rfl
      rw [if_neg (by rw [htoken]; exact bearer_ne_empty issued), htoken]
    | checkToken issued' =>
      rw [hpoint] at hheader hd
      cases hheader
      rw [hd issued rfl]
    | check issued' authorization' =>
      rw [hpoint] at hheader
      cases hheader
      exact hcheck d issued authorization hpoint
    | _ =>
      rw [hpoint] at hheader
      cases hheader

theorem RdfmClient.Carried.carries (h : rc.Carried) (e : LoopEvent ι) : Carries rc e := by
  cases e with
  | turn d => trivial
  | authorized d answer => trivial
  | checked d answer => exact (carried_iff.mp h).2 d

/-- A check that has got so far carries its own token if the client holds this one. -/
structure CheckPoint.Own (p : CheckPoint) (token : String) : Prop where
  reads : ∀ issued, p.reads = some issued → token = bearer issued
  check : ∀ issued authorization, p = .check issued authorization →
    authorization = some (bearer issued)

/-- A check that has not stored its token, or is done. -/
def CheckPoint.aside : CheckPoint → Bool
  | checkLen _ | checkToken _ | check _ _ => false
  | _ => true

theorem CheckPoint.Own.of_aside {p : CheckPoint} (h : p.aside = true) (token : String) :
    p.Own token := by
  cases p with
  | checkLen issued => cases h
  | checkToken issued => cases h
  | check issued authorization => cases h
  | _ =>
    refine ⟨?_, ?_⟩
    · rintro issued ⟨⟩
    · rintro issued authorization ⟨⟩

theorem authorizeDevice_own (answer : AuthAnswer) (token : String) :
    (authorizeDevice answer).Own token := by
  unfold authorizeDevice
  split <;> exact .of_aside rfl token

namespace RdfmClient.Carried

variable [DecidableEq ι] {d : ι} {p : CheckPoint} {token : String}

/-- A check that moves on with its own token disturbs at most the others. -/
theorem move_iff (h : rc.Carried) (hown : p.Own token) :
    (rc.move d p token).Carried ↔
      ∀ d' ≠ d, ∀ issued, (rc.checks d').reads = some issued → token = bearer issued := by
  obtain ⟨-, hc⟩ := carried_iff.mp h
  rw [carried_iff]
  constructor
  · rintro ⟨hr, -⟩ d' hd issued hd'
    refine hr d' issued ?_
    rw [rc.move_checks_of_ne hd]
    exact hd'
  · intro hothers
    refine ⟨fun d' issued hd' => ?_, fun d' issued authorization hd' => ?_⟩
    · by_cases hd : d' = d
      · subst hd
        rw [move_checks_self] at hd'
        exact hown.reads issued hd'
      · rw [rc.move_checks_of_ne hd] at hd'
        exact hothers d' hd issued hd'
    · by_cases hd : d' = d
      · subst hd
        rw [move_checks_self] at hd'
        exact hown.check issued authorization hd'
      · rw [rc.move_checks_of_ne hd] at hd'
        exact hc d' issued authorization hd'

/-- A step that does not write the token disturbs nobody. -/
theorem move (h : rc.Carried) (hown : p.Own rc.token) : (rc.move d p rc.token).Carried :=
  (h.move_iff hown).mpr fun d' _ => (carried_iff.mp h).1 d'

/-- An access to the token. -/
theorem turn_iff (h : rc.Carried) (d : ι) : (rc.turn d).Carried ↔ Undisturbed rc (.turn d) := by
  have hread := (carried_iff.mp h).1 d
  have hquiet : (rc.checks d).writes = none → (rc.turn d).Carried →
      ((rc.turn d).Carried ↔ Undisturbed rc (.turn d)) := by
    refine fun hwrites hturn => iff_of_true hturn fun token hw => ?_
    rw [hwrites] at hw
    cases hw
  -- A turn that writes is undisturbed if the others have the token that it writes.
  have hwrite : ∀ {p token}, (rc.checks d).writes = some token → p.Own token →
      rc.turn d = rc.move d p token → ((rc.turn d).Carried ↔ Undisturbed rc (.turn d)) := by
    intro p token hwrites hown hturn
    rw [hturn, h.move_iff hown]
    refine ⟨fun hothers token' hw => ?_, fun hothers => hothers token hwrites⟩
    cases hwrites.symm.trans hw
    exact hothers
  cases hpoint : rc.checks d with
  | idle last =>
    refine hquiet (by rw [hpoint]; rfl) ?_
    simp only [turn, hpoint]
    exact h.move (.of_aside rfl _)
  | clearToken =>
    refine hwrite (p := .authLen) (by rw [hpoint]; rfl) (.of_aside rfl _) ?_
    simp only [turn, hpoint]
  | authLen =>
    refine hquiet (by rw [hpoint]; rfl) ?_
    simp only [turn, hpoint]
    split <;> exact h.move (.of_aside rfl _)
  | authToken =>
    refine hquiet (by rw [hpoint]; rfl) ?_
    simp only [turn, hpoint]
    exact h.move (.of_aside rfl _)
  | authorize authorization =>
    refine hquiet (by rw [hpoint]; rfl) ?_
    simp only [turn, hpoint]
    exact h
  | storeToken issued =>
    refine hwrite (p := .checkLen issued) (by rw [hpoint]; rfl) ?_ ?_
    · refine ⟨?_, ?_⟩
      · rintro _ ⟨⟩
        rfl
      · rintro _ _ ⟨⟩
    · simp only [turn, hpoint]
  | checkLen issued =>
    refine hquiet (by rw [hpoint]; rfl) ?_
    have htoken := hread issued (by rw [hpoint]; rfl)
    have hne : rc.token ≠ "" := by
      rw [htoken]
      exact bearer_ne_empty issued
    simp only [turn, hpoint, if_neg hne]
    refine h.move ⟨?_, ?_⟩
    · rintro _ ⟨⟩
      exact htoken
    · rintro _ _ ⟨⟩
  | checkToken issued =>
    refine hquiet (by rw [hpoint]; rfl) ?_
    have htoken := hread issued (by rw [hpoint]; rfl)
    simp only [turn, hpoint]
    refine h.move ⟨?_, ?_⟩
    · rintro _ ⟨⟩
    · rintro _ _ ⟨⟩
      rw [htoken]
  | check issued authorization =>
    refine hquiet (by rw [hpoint]; rfl) ?_
    simp only [turn, hpoint]
    exact h

end RdfmClient.Carried

/-- One step: every check goes on with its own token exactly if no other was disturbed. -/
theorem RdfmClient.Carried.step_iff [DecidableEq ι] (h : rc.Carried) (e : LoopEvent ι) :
    (rc.step e).Carried ↔ Undisturbed rc e := by
  cases e with
  | turn d => exact h.turn_iff d
  | authorized d answer =>
    refine iff_of_true ?_ trivial
    unfold RdfmClient.step
    dsimp only
    split
    · exact h.move (authorizeDevice_own answer _)
    · exact h
  | checked d answer =>
    refine iff_of_true ?_ trivial
    unfold RdfmClient.step
    dsimp only
    split
    · exact h.move (.of_aside rfl _)
    · exact h

end Steps

/-! ## Runs -/

/-- **The token of an update check.** Along every run of any number of loops, every check that goes on
carries the token issued for it exactly if no loop writes another token while a check is still to
read its own; and then every request that is sent carries its own. -/
theorem shared_token_iff (ι : Type) [DecidableEq ι] (events : List (LoopEvent ι)) :
    (Along RdfmClient.step (fun rc e => (rc.step e).Carried) (.init ι) events ↔
      Along RdfmClient.step Undisturbed (.init ι) events) ∧
    (Along RdfmClient.step Undisturbed (.init ι) events →
      Along RdfmClient.step Carries (.init ι) events) := by
  have hinit : (RdfmClient.init ι).Carried := by
    rintro d issued authorization ⟨⟩
  refine ⟨Along.iff_of_invariant (fun rc e h => ⟨h.step_iff e, (h.step_iff e).mpr⟩) hinit, ?_⟩
  exact Along.of_invariant (fun rc e h hu => ⟨(h.step_iff e).mpr hu, h.carries e⟩) hinit

namespace SharedTokenRun

/-- Two devices. The first is issued its token and stores it; then the second clears it, and the first
goes on. -/
def events : List (LoopEvent Bool) :=
  [.turn true, .turn true, .turn true, .authorized true (.response 200 "200 OK" (some "A")),
    .turn true, .turn false, .turn false, .turn true]

end SharedTokenRun

open SharedTokenRun in
/-- The request of the first device has no token. -/
theorem shared_token_cleared :
    ¬ Carries (events.foldl RdfmClient.step (.init Bool)) (.checked true .unsent) := by
  intro h
  cases h "A" none rfl

end Rdfm.Mcumgr
