/-
Module: TavilyHikari.Store.QuotaSubject
Purpose: The subject that business quota is counted for, and its textual form in
  the `billing_subject` columns (`lib.rs`).
Trusted boundary: none
Main exports: QuotaSubject, billingSubject, fromBillingSubject,
  fromBillingSubject_eq_some_iff
-/
import TavilyHikari.Library.Text

namespace TavilyHikari.Store

open Library

/-- A token counts for itself until it is bound to a user, then for the
account. -/
inductive QuotaSubject where
  | token (tokenId : String)
  | account (userId : String)
deriving DecidableEq, Repr

namespace QuotaSubject

/-- `QuotaSubject::billing_subject`. -/
def billingSubject : QuotaSubject → String
  | .token tokenId => "token:" ++ tokenId
  | .account userId => "account:" ++ userId

/-- `QuotaSubject::from_billing_subject`, and the chain of `strip_prefix` in
`apply_pending_billing_log` and `billing_subject_parts`. -/
def fromBillingSubject (subject : String) : Option QuotaSubject :=
  match stripPrefix "account:" subject with
  | some userId => some (.account userId)
  | none =>
      match stripPrefix "token:" subject with
      | some tokenId => some (.token tokenId)
      | none => none

@[simp] theorem fromBillingSubject_billingSubject (subject : QuotaSubject) :
    fromBillingSubject subject.billingSubject = some subject := by
  cases subject with
  | token tokenId =>
      have other : stripPrefix "account:" ("token:" ++ tokenId) = none := by
        rw [stripPrefix_eq_none_iff]
        exact startsWith_false_of_ne (by simp)
      simp [billingSubject, fromBillingSubject, other]
  | account userId => simp [billingSubject, fromBillingSubject]

/-- A text names a subject exactly when it is that subject's text. -/
theorem fromBillingSubject_eq_some_iff {text : String} {subject : QuotaSubject} :
    fromBillingSubject text = some subject ↔ text = subject.billingSubject := by
  constructor
  · intro parsed
    unfold fromBillingSubject at parsed
    cases user : stripPrefix "account:" text with
    | some userId =>
        rw [user] at parsed
        cases parsed
        exact stripPrefix_eq_some_iff.1 user
    | none =>
        rw [user] at parsed
        cases token : stripPrefix "token:" text with
        | some tokenId =>
            rw [token] at parsed
            cases parsed
            exact stripPrefix_eq_some_iff.1 token
        | none =>
            rw [token] at parsed
            cases parsed
  · rintro rfl
    exact fromBillingSubject_billingSubject subject

theorem billingSubject_injective : Function.Injective billingSubject := by
  intro one two same
  have parsed := fromBillingSubject_billingSubject one
  rw [same, fromBillingSubject_billingSubject] at parsed
  exact (Option.some.inj parsed).symm

end QuotaSubject

end TavilyHikari.Store
