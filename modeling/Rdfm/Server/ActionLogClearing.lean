import Rdfm.Lib.Decimal
import Rdfm.Server.ActionDelivery

/-!
# Clearing of the action log

The column `status` of `action_logs` is a text. The texts of different statuses are different
(`LogStatus.text_injective`), and of those that the server writes only `"0"` and `"-1"` are taken for
those of completed actions: a row with an error or with another result code stays when the log of its
device is cleared (`action_log_clearing_iff`).
-/

namespace Rdfm.Server

open Rdfm.Lib

/-! ## The column -/

/-- `str` of a status code. -/
def codeText : Int → List Char
  | .ofNat n => itoa n
  | .negSucc n => '-' :: itoa (n + 1)

/-- What `execute_action`, `send_action_queue` and `execute_action_result` write to the column. -/
def LogStatus.text : LogStatus → List Char
  | .pending => "pending".toList
  | .sent => "sent".toList
  | .result code => codeText code
  | .error => "error".toList

theorem codeText_injective : Function.Injective codeText := by
  intro i j h
  cases i with
  | ofNat m =>
    cases j with
    | ofNat n => exact congrArg Int.ofNat (itoa_injective h)
    | negSucc n =>
      have hminus : '-' ∈ codeText (.ofNat m) := h ▸ List.mem_cons_self
      exact absurd hminus (not_mem_itoa rfl)
  | negSucc m =>
    cases j with
    | ofNat n =>
      have hminus : '-' ∈ codeText (.ofNat n) := h.symm ▸ List.mem_cons_self
      exact absurd hminus (not_mem_itoa rfl)
    | negSucc n =>
      have hsucc : m + 1 = n + 1 := itoa_injective (List.cons.inj h).2
      rw [Nat.succ.inj hsucc]

/-- No status code is written with letters. -/
theorem not_mem_codeText {code : Int} {c : Char} (hdigit : c.isDigit = false) (hminus : c ≠ '-') :
    c ∉ codeText code := by
  cases code with
  | ofNat n => exact not_mem_itoa hdigit
  | negSucc n =>
    intro hc
    rcases List.mem_cons.mp hc with rfl | hc
    · exact hminus rfl
    · exact not_mem_itoa hdigit hc

/-- No two statuses are written alike. -/
theorem LogStatus.text_injective : Function.Injective LogStatus.text := by
  have hcode (code : Int) {t : List Char} (he : 'e' ∈ t) : codeText code ≠ t := by
    rintro rfl
    exact not_mem_codeText rfl (by decide) he
  intro a b h
  cases a <;> cases b
  case result.result => exact congrArg LogStatus.result (codeText_injective h)
  case result.pending | result.sent | result.error => exact absurd h (hcode _ (by decide))
  case pending.result | sent.result | error.result => exact absurd h.symm (hcode _ (by decide))
  case pending.pending | sent.sent | error.error => rfl
  all_goals
    revert h
    decide

/-! ## The statements -/

/-- `delete_device_log`. -/
def deleteDeviceLog (macAddress : String) (rows : List ActionLog) : List ActionLog :=
  rows.filter fun r =>
    !(r.macAddress = macAddress && ["0".toList, "-1".toList].contains r.status.text)

/-- `delete_pending_actions`. -/
def deletePendingActions (macAddress : String) (rows : List ActionLog) : List ActionLog :=
  rows.filter fun r => !(r.macAddress = macAddress && r.status.text == "pending".toList)

/-- `delete_selected_actions`. -/
def deleteSelectedActions (macAddress : String) (actions : List String) (rows : List ActionLog) :
    List ActionLog :=
  rows.filter fun r => !(r.macAddress = macAddress && actions.contains r.id)

/-- The routes `clear_action_log`, `remove_pending_actions` and `remove_selected_actions`. -/
def LogDeletion.apply (rows : List ActionLog) : LogDeletion → List ActionLog
  | .completed macAddress => deleteDeviceLog macAddress rows
  | .pending macAddress => deletePendingActions macAddress rows
  | .selected macAddress ids => deleteSelectedActions macAddress ids rows

def LogDeletion.macAddress : LogDeletion → String
  | .completed macAddress => macAddress
  | .pending macAddress => macAddress
  | .selected macAddress _ => macAddress

theorem text_completed_iff {status : LogStatus} :
    ["0".toList, "-1".toList].contains status.text = true ↔
      status = .result 0 ∨ status = .result (-1) := by
  have hzero : "0".toList = (LogStatus.result 0).text := by decide
  have hminus : "-1".toList = (LogStatus.result (-1)).text := by decide
  rw [List.contains_iff_mem, List.mem_cons, List.mem_singleton, hzero, hminus,
    LogStatus.text_injective.eq_iff, LogStatus.text_injective.eq_iff]

/-- On texts as on statuses. -/
theorem LogDeletion.apply_eq (rows : List ActionLog) (d : LogDeletion) :
    d.apply rows = rows.filter fun r => !d.covers r := by
  cases d with
  | completed macAddress =>
    refine List.filter_congr fun r _ => congrArg Bool.not ?_
    rw [Bool.eq_iff_iff, Bool.and_eq_true, text_completed_iff, decide_eq_true_eq]
    exact decide_eq_true_iff.symm
  | pending macAddress =>
    refine List.filter_congr fun r _ => congrArg Bool.not ?_
    rw [Bool.eq_iff_iff, Bool.and_eq_true, beq_iff_eq, decide_eq_true_eq,
      show "pending".toList = LogStatus.pending.text from rfl, LogStatus.text_injective.eq_iff]
    exact decide_eq_true_iff.symm
  | selected macAddress ids =>
    refine List.filter_congr fun r _ => congrArg Bool.not ?_
    rw [Bool.eq_iff_iff, Bool.and_eq_true, List.contains_iff_mem, decide_eq_true_eq]
    exact decide_eq_true_iff.symm

/-! ## Exact clearing -/

/-- There is a result code, or an error. -/
def LogStatus.isCompleted : LogStatus → Bool
  | .pending | .sent => false
  | .result _ | .error => true

/-- The rows that a deletion is for. -/
def LogDeletion.meant (r : ActionLog) : LogDeletion → Bool
  | .completed macAddress => r.macAddress = macAddress ∧ r.status.isCompleted
  | .pending macAddress => r.macAddress = macAddress ∧ r.status = .pending
  | .selected macAddress ids => r.macAddress = macAddress ∧ r.id ∈ ids

/-- The statuses that `delete_device_log` does not have in its list. -/
def LogStatus.Overlooked (status : LogStatus) : Prop :=
  status = .error ∨ ∃ code, status = .result code ∧ code ≠ 0 ∧ code ≠ -1

theorem LogStatus.overlooked_iff {status : LogStatus} :
    status.Overlooked ↔
      status.isCompleted = true ∧ ¬ (status = .result 0 ∨ status = .result (-1)) := by
  unfold LogStatus.Overlooked
  cases status <;> simp [LogStatus.isCompleted]

namespace ActionServer

/-- Every deletion for the device removes the rows that it is for, keeps the others in their order,
and changes no row of another device. -/
structure ClearsExactly (s : ActionServer) (macAddress : String) : Prop where
  removes : ∀ d : LogDeletion, d.macAddress = macAddress →
    (s.next (.delete d)).rows = s.rows.filter fun r => !d.meant r
  others : ∀ d : LogDeletion, d.macAddress = macAddress → ∀ r : ActionLog,
    r.macAddress ≠ macAddress → (r ∈ (s.next (.delete d)).rows ↔ r ∈ s.rows)

variable {s s' : ActionServer} {o : ActionOutput} {e : ActionEvent} {d : LogDeletion} {r : ActionLog}

/-- The step of the server is the statement on the column. -/
theorem next_delete_rows (s : ActionServer) (d : LogDeletion) :
    (s.next (.delete d)).rows = d.apply s.rows := (d.apply_eq s.rows).symm

theorem covers_macAddress (hcovers : d.covers r = true) : r.macAddress = d.macAddress := by
  cases d <;> exact (of_decide_eq_true hcovers).1

/-- A deletion removes what it is for, except for the overlooked rows of a clearing. -/
theorem covers_eq_meant_iff :
    d.covers r = d.meant r ↔
      ∀ macAddress, d = .completed macAddress → r.macAddress = macAddress → ¬ r.status.Overlooked := by
  cases d with
  | completed macAddress =>
    rw [Bool.eq_iff_iff, LogDeletion.covers, LogDeletion.meant, decide_eq_true_eq, decide_eq_true_eq]
    constructor
    · rintro hiff _ ⟨⟩ hmac hover
      obtain ⟨hcompleted, hnot⟩ := LogStatus.overlooked_iff.mp hover
      exact hnot (hiff.mpr ⟨hmac, hcompleted⟩).2
    · intro hseen
      refine and_congr_right fun hmac => ?_
      have hseen := hseen macAddress rfl hmac
      rw [LogStatus.overlooked_iff] at hseen
      constructor
      · rintro (h | h) <;> rw [h] <;> rfl
      · intro hcompleted
        by_contra hnot
        exact hseen ⟨hcompleted, hnot⟩
  | pending macAddress | selected macAddress ids =>
    refine iff_of_true rfl fun _ h => ?_
    cases h

/-- Two filters leave the same rows only if they agree on all of them. -/
theorem filter_not_eq_iff {p q : ActionLog → Bool} {rows : List ActionLog} :
    (rows.filter fun r => !p r) = (rows.filter fun r => !q r) ↔ ∀ r ∈ rows, p r = q r := by
  constructor
  · intro h r hr
    have hmem : r ∈ (rows.filter fun r => !p r) ↔ r ∈ (rows.filter fun r => !q r) := by rw [h]
    rw [List.mem_filter, List.mem_filter, and_iff_right hr, and_iff_right hr, ← Bool.eq_iff_iff] at hmem
    exact Bool.not_inj hmem
  · intro h
    exact List.filter_congr fun r hr => congrArg Bool.not (h r hr)

/-- In any table, a clearing is exact exactly if no row of the device is overlooked. -/
theorem clearsExactly_iff {macAddress : String} :
    s.ClearsExactly macAddress ↔
      ∀ r ∈ s.rows, r.macAddress = macAddress → ¬ r.status.Overlooked := by
  constructor
  · rintro ⟨hremoves, -⟩ r hr
    have hfilter := hremoves (.completed macAddress) rfl
    exact covers_eq_meant_iff.mp (filter_not_eq_iff.mp hfilter r hr) macAddress rfl
  · intro hseen
    constructor
    · intro d hd
      refine filter_not_eq_iff.mpr fun r hr => covers_eq_meant_iff.mpr ?_
      rintro _ rfl hmac
      exact hseen r hr (hmac.trans hd)
    · intro d hd r hne
      have hcovers : d.covers r = false := by
        rw [Bool.eq_false_iff]
        intro h
        exact hne ((covers_macAddress h).trans hd)
      rw [next_delete_rows, LogDeletion.apply_eq, List.mem_filter, hcovers]
      exact and_iff_left rfl

/-! ## What the server stores -/

/-- All that is written to the table: a new row, a status, and deletions. -/
theorem step_rows (hstep : s.step e = some (s', o)) :
    (∃ id actionId macAddress, e = .execute id actionId macAddress ∧
      s'.rows = s.rows ++ [⟨id, actionId, macAddress, .pending, none⟩]) ∨
    (∃ id status downloadUrl, s'.rows = updateStatus id status downloadUrl s.rows) ∨
    s'.rows ⊆ s.rows := by
  cases e with
  | execute id actionId macAddress =>
    obtain ⟨-, rfl, -⟩ := step_execute_iff.mp hstep
    exact .inl ⟨id, actionId, macAddress, rfl, rfl⟩
  | handler id e =>
    obtain ⟨h, -, hstep⟩ := step_handler_iff.mp hstep
    obtain ⟨-, rfl, -⟩ | ⟨-, -, rfl, -⟩ | ⟨-, -, rfl⟩ | ⟨-, rfl, -⟩ | ⟨rfl, -⟩ | ⟨_, -, -, -, rfl⟩ |
      ⟨_, -, -, -, rfl⟩ | ⟨-, rfl, -⟩ := handlerStep_cases hstep
    case inr.inl => exact .inr (.inl ⟨id, .error, none, rfl⟩)
    all_goals exact .inr (.inr (List.Subset.refl _))
  | connect t macAddress =>
    obtain ⟨-, rfl, -⟩ := step_connect_iff.mp hstep
    exact .inr (.inr (List.Subset.refl _))
  | queue t e =>
    obtain ⟨q, -, hstep⟩ := step_queue_iff.mp hstep
    obtain ⟨rfl, -⟩ | ⟨-, -, rfl⟩ | ⟨action, _, -, -, -, rfl⟩ | ⟨_, _, -, -, rfl⟩ |
      ⟨_, _, -, -, rfl⟩ := queueStep_cases hstep
    case inr.inr.inl => exact .inr (.inl ⟨action.id, .error, none, rfl⟩)
    all_goals exact .inr (.inr (List.Subset.refl _))
  | control c id status =>
    obtain ⟨-, heq⟩ := step_control_iff.mp hstep
    have hrows : (s.executeActionControl id status).1.rows = s.rows := control_rows
    rw [heq] at hrows
    exact .inr (.inr (hrows ▸ List.Subset.refl _))
  | result c id code output =>
    obtain ⟨-, heq⟩ := step_result_iff.mp hstep
    have hrows : (s.executeActionResult c id code output).1.rows = s.rows := result_rows
    rw [heq] at hrows
    exact .inr (.inr (hrows ▸ List.Subset.refl _))
  | store c =>
    obtain ⟨p, -, rfl, -⟩ := step_store_iff.mp hstep
    exact .inr (.inl ⟨p.executionId, .result p.statusCode, p.downloadUrl, rfl⟩)
  | delete d =>
    cases hstep
    exact .inr (.inr List.filter_sublist.subset)

theorem updateStatus_ne_sent {id : String} {status : LogStatus} {downloadUrl : Option String}
    {rows : List ActionLog} (h : ∀ r ∈ rows, r.status ≠ .sent) :
    ∀ r ∈ updateStatus id status downloadUrl rows, r.status ≠ .sent := by
  unfold updateStatus
  split
  · exact h
  · next hstatus =>
    intro r hr
    obtain ⟨old, hold, rfl⟩ := mem_updateWhere.mp hr
    split
    · exact hstatus
    · exact h old hold

/-- Nothing ever stores `sent`. -/
theorem next_ne_sent (h : ∀ r ∈ s.rows, r.status ≠ .sent) (e : ActionEvent) :
    ∀ r ∈ (s.next e).rows, r.status ≠ .sent := by
  unfold ActionServer.next
  split
  · exact h
  · next s' o hstep =>
    rcases step_rows hstep with ⟨id, actionId, macAddress, -, hrows⟩ |
      ⟨id, status, downloadUrl, hrows⟩ | hsubset
    · intro r hr
      rw [hrows] at hr
      rcases List.mem_append.mp hr with hr | hr
      · exact h r hr
      · cases List.mem_singleton.mp hr
        exact nofun
    · rw [hrows]
      exact updateStatus_ne_sent h
    · exact fun r hr => h r (hsubset hr)

theorem foldl_ne_sent (h : ∀ r ∈ s.rows, r.status ≠ .sent) (events : List ActionEvent) :
    ∀ r ∈ (events.foldl ActionServer.next s).rows, r.status ≠ .sent := by
  induction events generalizing s with
  | nil => exact h
  | cons e events ih => exact ih (next_ne_sent h e)

end ActionServer

/-- In every run, each row is pending, or it has a result code or an error. -/
theorem stored_status (events : List ActionEvent) :
    ∀ r ∈ (events.foldl ActionServer.next .init).rows,
      r.status = .pending ∨ r.status.isCompleted = true := by
  intro r hr
  cases hstatus : r.status with
  | pending => exact .inl rfl
  | sent => exact absurd hstatus (ActionServer.foldl_ne_sent (s := .init) nofun events r hr)
  | result code => exact .inr rfl
  | error => exact .inr rfl

/-- **Clearing is exact** in a reachable state exactly if no row of the device has an error, or a
result code other than 0 and -1. -/
theorem action_log_clearing_iff (events : List ActionEvent) (macAddress : String) :
    (events.foldl ActionServer.next .init).ClearsExactly macAddress ↔
      ∀ r ∈ (events.foldl ActionServer.next .init).rows, r.macAddress = macAddress →
        ¬ (r.status = .error ∨ ∃ code, r.status = .result code ∧ code ≠ 0 ∧ code ≠ -1) :=
  ActionServer.clearsExactly_iff

/-- A device does not know the action. The row with the error is still there after the clearing. -/
theorem action_log_not_cleared :
    ¬ (([.execute "e" "reboot" "d", .handler "e" .unknownAction].foldl ActionServer.next
      .init).ClearsExactly "d") := by
  rintro ⟨hremoves, -⟩
  have hrows := congrArg List.length (hremoves (.completed "d") rfl)
  revert hrows
  decide

end Rdfm.Server
