import Mathlib.Data.Int.Notation
import Mathlib.Tactic.Common

/-!
The details of an entry of the audit trail. Only some keys may occur, and their values have to
be short; an entry with other details raises, in the transaction that it is about.
-/
namespace Hyproxy.AuditDetails

inductive EventType
  | oidcCodeIssued
  | oidcCodeReplayDetected
  | oidcTokenIssued
  | oidcTokenRefreshed
  | oidcRefreshReuseDetected
  | sessionRevoked
  | sessionStaleIp
  | sessionIdleTimeout
  deriving Repr, DecidableEq

def EventType.value : EventType → String
  | .oidcCodeIssued => "oidc.code.issued"
  | .oidcCodeReplayDetected => "oidc.code.replay_detected"
  | .oidcTokenIssued => "oidc.token.issued"
  | .oidcTokenRefreshed => "oidc.token.refreshed"
  | .oidcRefreshReuseDetected => "oidc.refresh.reuse_detected"
  | .sessionRevoked => "session.revoked"
  | .sessionStaleIp => "session.stale_ip"
  | .sessionIdleTimeout => "session.idle_timeout"

/-- A value of Python; the last ones are no scalars. -/
inductive Value
  | str (s : List Char)
  | int (n : ℤ)
  | bool (b : Bool)
  | float (text : List Char)
  | other
  deriving Repr, DecidableEq

abbrev Detail := List (String × Value)

def allowedDetailKeys : List String :=
  ["reason", "stage", "kid", "scope", "grant_type", "credential_id", "friendly_name", "batch_id",
    "family_id", "entity_type", "entity_id", "throttle_scope", "retry_after", "old_ip", "new_ip",
    "email", "target"]

/-- A `ValueError` of `_validate_detail`. -/
inductive DetailError
  | disallowed (keys : List String)
  | notShort (key : String)
  deriving Repr, DecidableEq

def Value.short : Value → Bool
  | .str s => s.length ≤ 256
  | .other => false
  | _ => true

def validateDetail (detail : Detail) : Except DetailError Unit :=
  let bad := (detail.map Prod.fst).filter fun key => !allowedDetailKeys.contains key
  if bad ≠ [] then .error (.disallowed (bad.mergeSort fun a b => decide (a ≤ b)))
  else
    match detail.find? fun entry => !entry.2.short with
    | some entry => .error (.notShort entry.1)
    | none => .ok ()

theorem short_str (s : List Char) (h : s.length ≤ 256) : (Value.str s).short = true :=
  decide_eq_true h

theorem validateDetail_ok (detail : Detail)
    (h : ∀ entry ∈ detail, entry.1 ∈ allowedDetailKeys ∧ entry.2.short = true) :
    validateDetail detail = .ok () := by
  have hbad : (detail.map Prod.fst).filter (fun key => !allowedDetailKeys.contains key) = [] := by
    refine List.filter_eq_nil_iff.mpr fun key hkey => ?_
    obtain ⟨entry, hentry, rfl⟩ := List.mem_map.mp hkey
    simpa using (h entry hentry).1
  have hshort : detail.find? (fun entry => !entry.2.short) = none :=
    List.find?_eq_none.mpr fun entry hentry => by simp [(h entry hentry).2]
  simp only [validateDetail, hbad, hshort, ne_eq, not_true_eq_false, if_false]

theorem validateDetail_long (key : String) (s : List Char) (hkey : key ∈ allowedDetailKeys)
    (hlong : 256 < s.length) : validateDetail [(key, .str s)] = .error (.notShort key) := by
  have hbad : ([(key, Value.str s)].map Prod.fst).filter
      (fun key => !allowedDetailKeys.contains key) = [] := by
    simpa using hkey
  have hnot : (Value.str s).short = false := by
    simpa [Value.short] using hlong
  simp only [validateDetail, hbad, ne_eq, not_true_eq_false, if_false, List.find?_cons, hnot,
    Bool.not_false]

end Hyproxy.AuditDetails
