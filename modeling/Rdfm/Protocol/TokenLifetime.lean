import Rdfm.Lib.Transition
import Rdfm.Server.DeviceAuth

/-!
# The life of a device token

The server gives a token for five minutes, and counts them by its own clock. A device asks for a new
one a while before the old one ends, and counts by its own clock too. The Linux client counts from the
answer: its tokens are good as long as answers are prompt (`linux_tokens_accepted`), and the bound is
exact (`linux_cached_accepted_iff`). The Android client counts from the request: its tokens are good
however late the answer comes (`android_tokens_accepted`). Neither depends on the difference of the
clocks, and the broker takes what the server takes (`broker_accepts_iff`).

Times are in milliseconds of the server's clock; `skew` is how far the device's clock is ahead of it.
Both clients keep their token under a lock, so that their calls come one after the other.
-/

namespace Rdfm.Protocol

open Rdfm.Lib
open Rdfm.Server (DeviceToken deviceJwtExpiry)

/-! ## The server and the broker -/

/-- The time in seconds, as `int(time.time())` and `time.Now().Unix()` have it. -/
def seconds (time : Int) : Int := time / 1000

/-- `decode_and_verify_token`, for a token that the server has signed. -/
def decodeAndVerifyToken (time : Int) (token : DeviceToken) : Option DeviceToken :=
  if seconds time ≥ token.createdAt + token.expires then none else some token

/-- `isValidToken` of the broker, for a token with the right signature. -/
def isValidToken (time : Int) (deviceId : String) (token : DeviceToken) : Bool :=
  token.deviceId = deviceId ∧ seconds time ≤ token.createdAt + token.expires

theorem decodeAndVerifyToken_eq_some {time : Int} {token : DeviceToken} :
    decodeAndVerifyToken time token = some token ↔
      seconds time < token.createdAt + token.expires := by
  unfold decodeAndVerifyToken
  split
  · exact ⟨nofun, fun hlt => by omega⟩
  · exact ⟨fun _ => by omega, fun _ => rfl⟩

/-- The broker takes the tokens of the device that the server takes, and takes them for one second
more. -/
theorem broker_accepts_iff {time : Int} {deviceId : String} {token : DeviceToken} :
    isValidToken time deviceId token = true ↔ token.deviceId = deviceId ∧
      (decodeAndVerifyToken time token = some token ∨
        seconds time = token.createdAt + token.expires) := by
  unfold isValidToken
  rw [decide_eq_true_iff, decodeAndVerifyToken_eq_some]
  constructor
  · rintro ⟨hid, hle⟩
    exact ⟨hid, by omega⟩
  · rintro ⟨hid, hcase⟩
    exact ⟨hid, by omega⟩

/-- A token that a client gives to a caller, and when. -/
structure Handed where
  token : DeviceToken
  time : Int
deriving DecidableEq

/-- The server takes the token when the caller gets it. -/
def Handed.Accepted (h : Handed) : Prop := decodeAndVerifyToken h.time h.token = some h.token

instance (h : Handed) : Decidable h.Accepted := inferInstanceAs (Decidable (_ = _))

/-! ## The Linux client -/

namespace Linux

def tokenExpiryMinAllowed : Int := 5

/-- The part of a `Device` that `getDeviceToken` keeps. A token that `ExtractJwtPayload` cannot read
is none. -/
structure Device where
  deviceToken : Option DeviceToken
  deviceTokenAcquired : Int
deriving DecidableEq

/-- What becomes of one request for a token. -/
inductive Answer where
  | failed
  /-- Status 200, and a body that is no JSON. -/
  | malformed
  /-- Status 200, and an empty token. -/
  | empty
  | granted (token : DeviceToken) (received : Int)
  /-- Any other status. -/
  | refused
deriving DecidableEq

structure TokenCall where
  now : Int
  answers : List Answer

section Client

variable (skew : Int) (d : Device)

/-- `authenticateDeviceWithServer`: it asks until it has a token, or cannot ask. `none` is that it
still asks, with the lock in its hand. -/
def authenticateDeviceWithServer : List Answer → Option (Device × Option Handed)
  | [] => none
  | .failed :: _ => some (d, none)
  | .malformed :: _ => some (d, none)
  | .empty :: _ => some ({ d with deviceToken := none }, none)
  | .granted token received :: _ =>
    some (⟨some token, seconds (received + skew)⟩, some ⟨token, received⟩)
  | .refused :: answers => authenticateDeviceWithServer answers

def getDeviceToken (call : TokenCall) : Option (Device × Option Handed) :=
  match d.deviceToken with
  | some payload =>
    if d.deviceTokenAcquired + payload.expires - tokenExpiryMinAllowed ≤ seconds (call.now + skew) then
      authenticateDeviceWithServer skew d call.answers
    else some (d, some ⟨payload, call.now⟩)
  | none => authenticateDeviceWithServer skew d call.answers

end Client

def Device.start : Device := ⟨none, 0⟩

/-- The second of the device's clock in which a token came began within five seconds after the one in
which the server made it. -/
def Prompt (skew : Int) (token : DeviceToken) (acquired : Int) : Prop :=
  1000 * acquired - skew ≤ 1000 * (token.createdAt + tokenExpiryMinAllowed)

/-- An answer with a token of the server, that is not late. -/
def Answer.Prompt (skew : Int) : Answer → Prop
  | granted token received =>
    token.expires = deviceJwtExpiry ∧ Linux.Prompt skew token (seconds (received + skew))
  | _ => True

section Client

variable {skew : Int} {d d' : Device} {call : TokenCall} {handed : Option Handed}

/-- What a call that ends does: it gives a token that is kept, or it has asked for one. -/
theorem getDeviceToken_cases (h : getDeviceToken skew d call = some (d', handed)) :
    (∃ payload, d.deviceToken = some payload ∧
      seconds (call.now + skew) < d.deviceTokenAcquired + payload.expires - tokenExpiryMinAllowed ∧
      d' = d ∧ handed = some ⟨payload, call.now⟩) ∨
    authenticateDeviceWithServer skew d call.answers = some (d', handed) := by
  unfold getDeviceToken at h
  cases hd : d.deviceToken with
  | none =>
    rw [hd] at h
    exact .inr h
  | some payload =>
    rw [hd] at h
    dsimp only at h
    split at h
    · exact .inr h
    · cases h
      exact .inl ⟨payload, rfl, by omega, rfl, rfl⟩

/-- What asking for a token does: the device has the token that it gives, or gives none. -/
theorem authenticate_cases {answers : List Answer}
    (h : authenticateDeviceWithServer skew d answers = some (d', handed)) :
    (handed = none ∧ (d' = d ∨ d'.deviceToken = none)) ∨
    ∃ token received, .granted token received ∈ answers ∧
      d' = ⟨some token, seconds (received + skew)⟩ ∧ handed = some ⟨token, received⟩ := by
  induction answers with
  | nil => cases h
  | cons answer answers ih =>
    cases answer with
    | failed | malformed =>
      cases h
      exact .inl ⟨rfl, .inl rfl⟩
    | empty =>
      cases h
      exact .inl ⟨rfl, .inr rfl⟩
    | granted token received =>
      cases h
      exact .inr ⟨token, received, List.mem_cons_self, rfl, rfl⟩
    | refused =>
      rcases ih h with hnone | ⟨token, received, hmem, hd', hhanded⟩
      · exact .inl hnone
      · exact .inr ⟨token, received, List.mem_cons_of_mem _ hmem, hd', hhanded⟩

/-- The token that the device keeps came in time. -/
def Device.Prompt (skew : Int) (d : Device) : Prop :=
  ∀ token, d.deviceToken = some token → Linux.Prompt skew token d.deviceTokenAcquired

/-- A token that came in time is taken while the device keeps it. -/
theorem accepted_of_prompt {token : DeviceToken} {acquired now : Int}
    (hprompt : Linux.Prompt skew token acquired)
    (hkept : seconds (now + skew) < acquired + token.expires - tokenExpiryMinAllowed) :
    Handed.Accepted ⟨token, now⟩ := by
  unfold Handed.Accepted
  rw [decodeAndVerifyToken_eq_some]
  unfold Linux.Prompt at hprompt
  unfold seconds tokenExpiryMinAllowed at *
  dsimp only
  omega

/-- A token that came in time is taken when it comes. -/
theorem accepted_of_granted {token : DeviceToken} {received : Int}
    (h : (Answer.granted token received).Prompt skew) : Handed.Accepted ⟨token, received⟩ := by
  obtain ⟨hexpires, hprompt⟩ := h
  refine accepted_of_prompt hprompt ?_
  rw [hexpires]
  unfold tokenExpiryMinAllowed deviceJwtExpiry
  omega

theorem getDeviceToken_accepted (hd : d.Prompt skew) (hcall : ∀ a ∈ call.answers, a.Prompt skew)
    (h : getDeviceToken skew d call = some (d', handed)) :
    d'.Prompt skew ∧ ∀ given, handed = some given → given.Accepted := by
  rcases getDeviceToken_cases h with ⟨payload, hpayload, hkept, rfl, rfl⟩ | h
  · refine ⟨hd, fun given hgiven => ?_⟩
    cases hgiven
    exact accepted_of_prompt (hd payload hpayload) hkept
  · rcases authenticate_cases h with ⟨rfl, rfl | hnone⟩ | ⟨token, received, hmem, rfl, rfl⟩
    · exact ⟨hd, nofun⟩
    · refine ⟨fun token htoken => ?_, nofun⟩
      rw [hnone] at htoken
      cases htoken
    · have hgranted := hcall _ hmem
      refine ⟨fun token' htoken' => ?_, fun given hgiven => ?_⟩
      · cases htoken'
        exact hgranted.2
      · cases hgiven
        exact accepted_of_granted hgranted

/-- Whatever the skew of the clocks: if all answers came in time, the server takes every token that a
caller gets. -/
theorem linux_tokens_accepted {calls : List TokenCall} {given : List (Option Handed)}
    (hcalls : ∀ call ∈ calls, ∀ a ∈ call.answers, a.Prompt skew)
    (hrun : runAll (getDeviceToken skew) .start calls = some (d, given)) :
    ∀ h, some h ∈ given → h.Accepted := by
  have hstep (d : Device) (call : TokenCall) (d' : Device) (handed : Option Handed)
      (hd : d.Prompt skew) (hcall : ∀ a ∈ call.answers, a.Prompt skew)
      (h : getDeviceToken skew d call = some (d', handed)) :
      d'.Prompt skew ∧ ∀ given, handed = some given → given.Accepted :=
    getDeviceToken_accepted hd hcall h
  have hstart : Device.start.Prompt skew := nofun
  intro h hh
  exact (runAll_answers hstep hstart hcalls hrun).2 _ hh h rfl

/-- A token that comes after one second, with a skew of an hour, and is given from then on. -/
theorem linux_tokens_accepted_skewed :
    Handed.Accepted ⟨⟨"02:42", 1000, 300⟩, 1295999⟩ := by
  have hrun : runAll (getDeviceToken 3600000) .start
      [⟨1000000, [.refused, .granted ⟨"02:42", 1000, 300⟩ 1001500]⟩, ⟨1295999, []⟩] =
      some (⟨some ⟨"02:42", 1000, 300⟩, 4601⟩,
        [some ⟨⟨"02:42", 1000, 300⟩, 1001500⟩, some ⟨⟨"02:42", 1000, 300⟩, 1295999⟩]) := rfl
  refine linux_tokens_accepted ?_ hrun _ (List.mem_cons_of_mem _ List.mem_cons_self)
  simp [Answer.Prompt, Linux.Prompt, deviceJwtExpiry, seconds, tokenExpiryMinAllowed]

/-- A token that the device keeps is given to callers only as long as the server takes it, exactly if
it came in time. -/
theorem linux_cached_accepted_iff {acquired : Int} {token : DeviceToken} :
    (∀ now d h, getDeviceToken skew ⟨some token, acquired⟩ ⟨now, []⟩ = some (d, some h) → h.Accepted) ↔
      Linux.Prompt skew token acquired := by
  constructor
  · intro haccepted
    -- the last moment at which the device gives the token
    let now := 1000 * (acquired + token.expires - tokenExpiryMinAllowed) - skew - 1
    have hkept : ¬ acquired + token.expires - tokenExpiryMinAllowed ≤ seconds (now + skew) := by
      unfold seconds
      omega
    have hgiven := haccepted now _ _ (if_neg hkept)
    unfold Handed.Accepted at hgiven
    rw [decodeAndVerifyToken_eq_some] at hgiven
    unfold seconds at hgiven
    unfold Linux.Prompt
    dsimp only at hgiven
    omega
  · intro hprompt now d h hgiven
    rcases getDeviceToken_cases hgiven with ⟨payload, hpayload, hkept, -, heq⟩ | hnone
    · cases hpayload
      cases heq
      exact accepted_of_prompt hprompt hkept
    · cases hnone

end Client

end Linux

/-! ## The Android client -/

namespace Android

/-- `TOKEN_EXPIRATION_GRACE_PERIOD_MS` -/
def tokenExpirationGracePeriodMs : Int := 5000

/-- The part of an `AuthorizationProvider` that changes. The first token is empty. -/
structure AuthorizationProvider where
  deviceToken : Option DeviceToken
  tokenExpiresAt : Int
deriving DecidableEq

def AuthorizationProvider.start : AuthorizationProvider := ⟨none, 0⟩

/-- What becomes of a request for a token. -/
inductive Answer where
  | granted (token : DeviceToken) (received : Int)
  | unauthorized
  | failed
deriving DecidableEq

/-- A call of `fetchDeviceToken` at a time, and the time and answer of the request if it makes one. -/
structure TokenCall where
  now : Int
  asked : Int
  answer : Answer

section Client

variable (skew : Int) (p : AuthorizationProvider) (call : TokenCall)

/-- `registerRequest`; nothing is handed out if it raises. -/
def registerRequest : AuthorizationProvider × Option Handed :=
  match call.answer with
  | .granted token received =>
    let expiryMillis : Int := token.expires * 1000
    let nextAuthMillis :=
      if expiryMillis > tokenExpirationGracePeriodMs then expiryMillis - tokenExpirationGracePeriodMs
      else expiryMillis
    (⟨some token, call.asked + skew + nextAuthMillis⟩, some ⟨token, received⟩)
  | .unauthorized | .failed => (p, none)

def isTokenExpired : Bool := call.now + skew ≥ p.tokenExpiresAt

def fetchDeviceToken : AuthorizationProvider × Option Handed :=
  if isTokenExpired skew p call then registerRequest skew p call
  else (p, p.deviceToken.map fun token => ⟨token, call.now⟩)

end Client

/-- The server makes the token after it was asked for, and the answer comes while it is good. -/
def TokenCall.Granted (call : TokenCall) : Prop :=
  ∀ token received, call.answer = .granted token received → token.expires = deviceJwtExpiry ∧
    seconds call.asked ≤ token.createdAt ∧ seconds received < token.createdAt + token.expires

/-- The time at which the provider asks anew, with the token that it has till then. -/
def AuthorizationProvider.Graced (skew : Int) (p : AuthorizationProvider) : Prop :=
  ∀ token, p.deviceToken = some token →
    p.tokenExpiresAt - skew ≤ 1000 * (token.createdAt + token.expires) - 4000

section Client

variable {skew : Int}

/-- A token that is kept is taken for four more seconds. -/
theorem cached_accepted {p : AuthorizationProvider} (h : p.Graced skew) {token : DeviceToken}
    (htoken : p.deviceToken = some token) {now : Int} (hkept : now + skew < p.tokenExpiresAt)
    {time : Int} (htime : time ≤ now + 4000) : Handed.Accepted ⟨token, time⟩ := by
  have hgraced := h token htoken
  unfold Handed.Accepted
  rw [decodeAndVerifyToken_eq_some]
  unfold seconds
  dsimp only
  omega

theorem fetchDeviceToken_accepted {p : AuthorizationProvider} (h : p.Graced skew) {call : TokenCall}
    (hcall : call.Granted) : (fetchDeviceToken skew p call).1.Graced skew ∧
      ∀ given, (fetchDeviceToken skew p call).2 = some given → given.Accepted := by
  unfold fetchDeviceToken
  cases hexpired : isTokenExpired skew p call with
  | false =>
    refine ⟨h, fun given hgiven => ?_⟩
    obtain ⟨token, htoken, rfl⟩ := Option.map_eq_some_iff.mp hgiven
    unfold isTokenExpired at hexpired
    rw [decide_eq_false_iff_not] at hexpired
    exact cached_accepted h htoken (Int.not_le.mp hexpired) (Int.le_add_of_nonneg_right (by decide))
  | true =>
    rw [if_pos rfl]
    unfold registerRequest
    cases hanswer : call.answer with
    | unauthorized | failed => exact ⟨h, nofun⟩
    | granted token received =>
      obtain ⟨hexpires, hmade, hreceived⟩ := hcall token received hanswer
      refine ⟨fun token' htoken' => ?_, fun given hgiven => ?_⟩
      · cases htoken'
        have hgrace : (token.expires : Int) * 1000 > tokenExpirationGracePeriodMs := by
          rw [hexpires]
          decide
        dsimp only
        rw [if_pos hgrace]
        unfold seconds at hmade
        unfold tokenExpirationGracePeriodMs
        omega
      · dsimp only at hgiven
        cases hgiven
        exact decodeAndVerifyToken_eq_some.mpr hreceived

/-- Whatever the skew of the clocks, and however late the answers: the server takes every token that a
caller gets. -/
theorem android_tokens_accepted {calls : List TokenCall} (hcalls : ∀ call ∈ calls, call.Granted)
    {p : AuthorizationProvider} {given : List (Option Handed)}
    (hrun : runAll (fun p call => some (fetchDeviceToken skew p call)) .start calls =
      some (p, given)) : ∀ h, some h ∈ given → h.Accepted := by
  have hstep (p : AuthorizationProvider) (call : TokenCall) (p' : AuthorizationProvider)
      (handed : Option Handed) (hp : p.Graced skew) (hcall : call.Granted)
      (h : some (fetchDeviceToken skew p call) = some (p', handed)) :
      p'.Graced skew ∧ ∀ given, handed = some given → given.Accepted := by
    have hnext := fetchDeviceToken_accepted hp hcall
    rw [Option.some.inj h] at hnext
    exact hnext
  have hstart : AuthorizationProvider.start.Graced skew := nofun
  intro h hh
  exact (runAll_answers hstep hstart hcalls hrun).2 _ hh h rfl

/-- A token that comes after a minute, with a clock an hour behind. -/
theorem android_tokens_accepted_late : Handed.Accepted ⟨⟨"02:42", 3601, 300⟩, 3895000⟩ := by
  have hrun : runAll (fun p call => some (fetchDeviceToken (-3600000) p call)) .start
      [⟨3600600, 3600700, .granted ⟨"02:42", 3601, 300⟩ 3661000⟩, ⟨3895000, 0, .failed⟩] =
      some (⟨some ⟨"02:42", 3601, 300⟩, 295700⟩,
        [some ⟨⟨"02:42", 3601, 300⟩, 3661000⟩, some ⟨⟨"02:42", 3601, 300⟩, 3895000⟩]) := rfl
  refine android_tokens_accepted ?_ hrun _ (List.mem_cons_of_mem _ List.mem_cons_self)
  simp [TokenCall.Granted, deviceJwtExpiry, seconds]

end Client

end Android

end Rdfm.Protocol
