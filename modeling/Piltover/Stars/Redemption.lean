/- source: piltover/app/utils/stars_manager.py
   digest: How often a form is redeemed, and an invoice paid, when calls overlap. -/

import Piltover.Foundation.Exclusive
import Piltover.Stars.Atomicity
import Piltover.Stars.Ledger

set_option autoImplicit false

namespace Piltover.Stars

open Piltover.Foundation
open Piltover.Foundation.Runs

def StarsTransaction.invoicePaid (t : StarsTransaction) : Option (UserId × Nat) :=
  if t.inbound then none else t.posting.msgId.map (t.userId, ·)

namespace Db

def paymentsOf (db : Db) (user : UserId) (msgId : Nat) : List StarsTransaction :=
  db.transactions.filter fun t => t.userId = user ∧ t.posting.msgId = some msgId ∧ t.inbound = false

def paid (db : Db) : List (UserId × Nat) := db.transactions.filterMap StarsTransaction.invoicePaid

theorem invoicePaid_eq_some {t : StarsTransaction} {user : UserId} {msgId : Nat} :
    t.invoicePaid = some (user, msgId) ↔
      t.userId = user ∧ t.posting.msgId = some msgId ∧ t.inbound = false := by
  unfold StarsTransaction.invoicePaid
  cases t.inbound <;> cases t.posting.msgId <;> simp

theorem length_paymentsOf (db : Db) (user : UserId) (msgId : Nat) :
    (db.paymentsOf user msgId).length = db.paid.count (user, msgId) := by
  rw [paid, List.count_filterMap, paymentsOf, ← List.countP_eq_length_filter]
  refine List.countP_congr fun t _ => ?_
  rw [decide_eq_true_iff, beq_iff_eq, invoicePaid_eq_some]

theorem mem_paid_iff {db : Db} {user : UserId} {msgId : Nat} :
    (user, msgId) ∈ db.paid ↔ db.invoiceAlreadyPaid user msgId = true := by
  rw [paid, invoiceAlreadyPaid, List.mem_filterMap, List.any_eq_true]
  refine exists_congr fun t => and_congr_right fun _ => ?_
  rw [invoicePaid_eq_some, decide_eq_true_iff]

end Db

def formTaken : Call × Phase → Option FormId
  | (call, .paying _) | (call, .crediting _ _ _) => some call.formId
  | _ => none

def invoiceTaken : Call × Phase → Option (UserId × Nat)
  | (call, .paying (.bot message _)) => some (call.userId, message.id)
  | _ => none

namespace World

/-- No form has been redeemed twice, and no user has paid an invoice twice. -/
def RedeemedOnce (w : World) : Prop :=
  (∀ formId, w.redeemed.count formId ≤ 1) ∧
    ∀ user msgId, (w.db.paymentsOf user msgId).length ≤ 1

/-- A call that deletes its form finds it there still, and the invoice neither paid nor about to be
paid by another call of the user. -/
def TakesForm (w : World) : FormEvent → Prop
  | .advance i => ∀ call charge, w.calls[i]? = some (call, .deleting charge) →
      (∃ form ∈ w.db.forms, form.id = call.formId) ∧
      ∀ message media, charge = .bot message media →
        w.db.invoiceAlreadyPaid call.userId message.id = false ∧
        (call.userId, message.id) ∉ w.calls.filterMap invoiceTaken
  | _ => True

/-- No call has begun, and the identifiers of all forms are known. -/
structure AtRest (w : World) : Prop where
  noCalls : w.calls = []
  unredeemed : w.redeemed = []
  unpaid : ∀ user msgId, (w.db.paymentsOf user msgId).length ≤ 1
  issued : ∀ form ∈ w.db.forms, form.id ∈ w.issued

structure Exclusively (w : World) : Prop where
  forms : Exclusive.Apart formTaken w.calls w.redeemed
  invoices : Exclusive.Apart invoiceTaken w.calls w.db.paid
  gone : ∀ form ∈ w.db.forms, form.id ∉ Exclusive.taken formTaken w.calls w.redeemed
  issued : ∀ form ∈ w.db.forms, form.id ∈ w.issued
  known : ∀ formId ∈ Exclusive.taken formTaken w.calls w.redeemed, formId ∈ w.issued

theorem Exclusively.redeemedOnce {w : World} (exclusively : w.Exclusively) : w.RedeemedOnce := by
  refine ⟨Exclusive.count_spent_le_one exclusively.forms, fun user msgId => ?_⟩
  rw [Db.length_paymentsOf]
  exact Exclusive.count_spent_le_one exclusively.invoices (user, msgId)

theorem AtRest.exclusively {w : World} (rest : w.AtRest) : w.Exclusively := by
  obtain ⟨noCalls, unredeemed, unpaid, issued⟩ := rest
  have untaken : Exclusive.taken formTaken w.calls w.redeemed = [] := by
    rw [noCalls, unredeemed]
    rfl
  refine ⟨?_, ?_, ?_, issued, ?_⟩
  · rw [Exclusive.Apart, untaken]
    exact List.nodup_nil
  · rw [Exclusive.Apart, noCalls]
    refine List.nodup_iff_count_le_one.mpr fun paid => ?_
    have once := unpaid paid.1 paid.2
    rw [Db.length_paymentsOf] at once
    exact once
  · rw [untaken]
    intro form _ taken
    cases taken
  · rw [untaken]
    intro formId taken
    cases taken

end World

namespace Call

variable {call : Call} {db : Db} {phase : Phase}

/-- A step from `phase` to `next` takes nothing: it keeps, gives up or spends what the call has
taken, and adds no form. -/
structure TakesNothing (call : Call) (db : Db) (phase next : Phase) (after : Db) : Prop where
  form : ∀ redeemed, Exclusive.Settles (formTaken (call, phase)) (formTaken (call, next)) redeemed
    (if phase.settles next then call.formId :: redeemed else redeemed)
  invoice : Exclusive.Settles (invoiceTaken (call, phase)) (invoiceTaken (call, next))
    db.paid after.paid
  forms : ∀ form ∈ after.forms, form ∈ db.forms

private theorem commit_ok {attempt : Attempt} {db after : Db} (ok : db.commit attempt = .ok after) :
    after = db := by
  rw [Db.commit] at ok
  split at ok <;> cases ok
  rfl

private theorem creditStars_ok {attempt : Attempt} {wallet : UserId} {stars : Int}
    {posting : Posting} {after : Db}
    (ok : db.creditStars attempt wallet stars true posting = .ok after) :
    after.paid = db.paid ∧ after.forms = db.forms := by
  rw [Db.creditStars] at ok
  cases commit_ok ok
  refine ⟨?_, rfl⟩
  change (db.transactions ++ [_]).filterMap StarsTransaction.invoicePaid = db.paid
  rw [List.filterMap_append]
  exact List.append_nil _

private theorem giftDebit_ok {attempt : Attempt} {stars : Int} {description : String}
    {wallet giftUser : UserId} {after : Db}
    (ok : db.debitStars attempt wallet stars (giftPosting description giftUser) = .ok after) :
    after.paid = db.paid ∧ after.forms = db.forms := by
  rw [Db.debitStars] at ok
  split at ok
  · cases ok
  · cases commit_ok ok
    refine ⟨?_, rfl⟩
    change (db.transactions ++ [_]).filterMap StarsTransaction.invoicePaid = db.paid
    rw [List.filterMap_append]
    exact List.append_nil _

private theorem invoiceTransfer_ok {attempt : Attempt} {payer recipient : UserId} {stars : Int}
    {recipientStars : Option Int} {message : MessageRef} {media : InvoiceMedia} {after : Db}
    (ok : db.transferStars attempt payer recipient stars recipientStars
      (invoicePosting message media recipient) (invoicePosting message media payer) = .ok after) :
    after.paid = db.paid ++ [(payer, message.id)] ∧ after.forms = db.forms := by
  rw [Db.transferStars] at ok
  split at ok
  · cases ok
  · cases commit_ok ok
    refine ⟨?_, rfl⟩
    change (db.transactions ++ [_] ++ [_]).filterMap StarsTransaction.invoicePaid = _
    rw [List.filterMap_append, List.filterMap_append]
    exact List.append_nil _

private theorem takesNothing_paid {charge : Charge} {next : Phase} {after : Db}
    (paid : call.Paid db charge next after) : call.TakesNothing db (.paying charge) next after := by
  cases paid with
  | topup invoice after _ credited =>
    obtain ⟨paid, forms⟩ := creditStars_ok credited
    exact ⟨fun _ => .spend _ _ _ (List.Perm.refl _), paid ▸ .keep _ _, fun _ mem => forms ▸ mem⟩
  | giftWithStars invoice giftUser after _ debited =>
    obtain ⟨paid, forms⟩ := giftDebit_ok debited
    exact ⟨fun _ => .keep _ _, paid ▸ .keep _ _, fun _ mem => forms ▸ mem⟩
  | gift => exact ⟨fun _ => .keep _ _, .keep _ _, fun _ mem => mem⟩
  | bot message media after transferred =>
    obtain ⟨paid, forms⟩ := invoiceTransfer_ok transferred
    refine ⟨fun _ => .spend _ _ _ (List.Perm.refl _), ?_, fun _ mem => forms ▸ mem⟩
    rw [paid]
    exact .spend _ _ _ (List.perm_append_singleton _ _)

private theorem takesNothing_paying (charge : Charge) :
    call.TakesNothing db (.paying charge) (call.advance db (.paying charge)).1
      (call.advance db (.paying charge)).2 := by
  rcases call.advance_paying charge with ⟨failure, -, same⟩ | ⟨next, after, paid, same⟩
  · rw [same]
    exact ⟨fun _ => .release _ _, .release _ _, fun _ mem => mem⟩
  · rw [same]
    exact takesNothing_paid paid

private theorem takesNothing_crediting (giftUser : UserId) (stars : Int) (paidWithStars : Bool) :
    call.TakesNothing db (.crediting giftUser stars paidWithStars)
      (call.advance db (.crediting giftUser stars paidWithStars)).1
      (call.advance db (.crediting giftUser stars paidWithStars)).2 := by
  rw [advance]
  split
  · exact ⟨fun _ => .release _ _, .keep _ _, fun _ mem => mem⟩
  · rename_i after credited
    obtain ⟨paid, forms⟩ := creditStars_ok credited
    exact ⟨fun _ => .spend _ _ _ (List.Perm.refl _), paid ▸ .keep _ _, fun _ mem => forms ▸ mem⟩

theorem takesNothing (call : Call) (db : Db) (phase : Phase)
    (kept : ∀ charge, phase ≠ .deleting charge) :
    call.TakesNothing db phase (call.advance db phase).1 (call.advance db phase).2 := by
  cases phase with
  | paying charge => exact takesNothing_paying charge
  | crediting giftUser stars paidWithStars =>
    exact takesNothing_crediting giftUser stars paidWithStars
  | deleting charge => exact absurd rfl (kept charge)
  | expiring => exact ⟨fun _ => .keep _ _, .keep _ _, fun _ mem => (List.mem_filter.mp mem).1⟩
  | start | checkingPaid | loading | precheckout | sending | done | failed =>
    rw [advance]
    (repeat' split) <;> exact ⟨fun _ => .keep _ _, .keep _ _, fun _ mem => mem⟩

end Call

namespace World

private theorem exclusively_settle {w : World} (exclusively : w.Exclusively) {i : Nat} {call : Call}
    {phase next : Phase} {after : Db} (present : w.calls[i]? = some (call, phase))
    (takes : call.TakesNothing w.db phase next after) :
    Exclusively { w with
      db := after
      calls := w.calls.set i (call, next)
      redeemed := if phase.settles next then call.formId :: w.redeemed else w.redeemed } where
  forms := Exclusive.apart_of_settles present exclusively.forms (takes.form w.redeemed)
  invoices := Exclusive.apart_of_settles present exclusively.invoices takes.invoice
  gone form mem taken :=
    exclusively.gone form (takes.forms form mem)
      (Exclusive.mem_of_settles present (takes.form w.redeemed) taken)
  issued form mem := exclusively.issued form (takes.forms form mem)
  known formId taken :=
    exclusively.known formId (Exclusive.mem_of_settles present (takes.form w.redeemed) taken)

private theorem exclusively_delete {w : World} (exclusively : w.Exclusively) {i : Nat} {call : Call}
    {charge : Charge} (present : w.calls[i]? = some (call, .deleting charge))
    (takes : w.TakesForm (.advance i)) :
    Exclusively { w with
      db := w.db.deleteForm call.formId
      calls := w.calls.set i (call, .paying charge) } := by
  obtain ⟨⟨form, there, same⟩, unpaid⟩ := takes call charge present
  have unused : call.formId ∉ Exclusive.taken formTaken w.calls w.redeemed :=
    same ▸ exclusively.gone form there
  have takesForm : ∀ formId ∈ Exclusive.taken formTaken (w.calls.set i (call, .paying charge))
      w.redeemed, formId = call.formId ∨ formId ∈ Exclusive.taken formTaken w.calls w.redeemed :=
    fun formId taken => List.mem_cons.mp
      ((Exclusive.perm_of_take w.redeemed present rfl rfl).mem_iff.mp taken)
  refine ⟨Exclusive.apart_of_take present exclusively.forms rfl rfl unused, ?_, ?_, ?_, ?_⟩
  · cases charge with
    | store => exact Exclusive.apart_of_settles present exclusively.invoices (.keep _ _)
    | bot message media =>
      obtain ⟨unpaid, alone⟩ := unpaid message media rfl
      refine Exclusive.apart_of_take present exclusively.invoices rfl rfl fun taken => ?_
      rcases List.mem_append.mp taken with held | paid
      · exact alone held
      · have already : w.db.invoiceAlreadyPaid call.userId message.id = true :=
          Db.mem_paid_iff.mp paid
        rw [unpaid] at already
        cases already
  · intro other mem taken
    obtain ⟨old, kept⟩ := List.mem_filter.mp mem
    rcases takesForm other.id taken with same | before
    · exact of_decide_eq_true kept same
    · exact exclusively.gone other old before
  · intro other mem
    exact exclusively.issued other (List.mem_filter.mp mem).1
  · intro formId taken
    rcases takesForm formId taken with rfl | before
    · exact same ▸ exclusively.issued form there
    · exact exclusively.known formId before

private theorem createPaymentForm_spec {db after : Db} {formId : FormId} {now : Int}
    {user : UserId} {invoice : InputInvoice}
    (created : db.createPaymentForm formId now user invoice = .ok after) :
    after.paid = db.paid ∧
      ∃ form : StarsPaymentForm, form.id = formId ∧ after.forms = db.forms ++ [form] := by
  unfold Db.createPaymentForm at created
  (repeat' split at created) <;> cases created <;> exact ⟨rfl, _, rfl, rfl⟩

theorem exclusively_formStep {w after : World} {e : FormEvent} (exclusively : w.Exclusively)
    (takes : w.TakesForm e) (happens : w.formStep e = some after) : after.Exclusively := by
  cases e with
  | createPaymentForm formId now user invoice =>
    simp only [formStep] at happens
    split at happens
    · cases happens
    · rename_i fresh
      split at happens <;> cases happens
      · exact exclusively
      · rename_i db created
        obtain ⟨paid, form, rfl, forms⟩ := createPaymentForm_spec created
        obtain ⟨apart, invoices, gone, issued, known⟩ := exclusively
        refine ⟨apart, paid ▸ invoices, ?_, ?_, fun formId taken => .tail _ (known formId taken)⟩
        · intro other mem taken
          rw [forms] at mem
          rcases List.mem_append.mp mem with old | new
          · exact gone other old taken
          · rw [List.mem_singleton.mp new] at taken
            exact fresh (known form.id taken)
        · intro other mem
          rw [forms] at mem
          rcases List.mem_append.mp mem with old | new
          · exact .tail _ (issued other old)
          · rw [List.mem_singleton.mp new]
            exact .head _
  | completePaymentForm call =>
    cases happens
    obtain ⟨apart, invoices, gone, issued, known⟩ := exclusively
    have noForm := Exclusive.taken_append formTaken w.calls w.redeemed (t := (call, .start)) rfl
    have noInvoice :=
      Exclusive.taken_append invoiceTaken w.calls w.db.paid (t := (call, .start)) rfl
    refine ⟨?_, ?_, ?_, issued, ?_⟩
    · rw [Exclusive.Apart, noForm]
      exact apart
    · rw [Exclusive.Apart, noInvoice]
      exact invoices
    · rw [noForm]
      exact gone
    · rw [noForm]
      exact known
  | advance i =>
    simp only [formStep] at happens
    split at happens
    · cases happens
    · rename_i call phase present
      cases happens
      by_cases deletes : ∃ charge, phase = .deleting charge
      · obtain ⟨charge, rfl⟩ := deletes
        exact exclusively_delete exclusively present takes
      · exact exclusively_settle exclusively present
          (call.takesNothing w.db phase fun charge same => deletes ⟨charge, same⟩)

/-- User 1 has 200 stars and a form for the invoice of 50. -/
def shop : World := ⟨Call.shopDb 200, [], [1], []⟩

private theorem shop_atRest : shop.AtRest where
  noCalls := rfl
  unredeemed := rfl
  unpaid _ _ := Nat.zero_le _
  issued := by decide

private def secondShopCall : Call := { Call.shopCall with first := ⟨"e", "f", 0, true⟩ }

/-- One call after the other: the second one does not find the form. -/
def oneAfterTheOther : List FormEvent :=
  [.completePaymentForm Call.shopCall, .advance 0, .advance 0, .advance 0, .advance 0, .advance 0,
    .completePaymentForm secondShopCall, .advance 1, .advance 1]

private def deleting : Phase → Bool
  | .deleting _ => true
  | _ => false

private theorem takesForm_elsewhere {w : World} {i : Nat}
    (kept : (w.calls[i]?).any (fun c => deleting c.2) = false) : w.TakesForm (.advance i) := by
  intro call charge same
  rw [same] at kept
  cases kept

private theorem oneAfterTheOther_takes : StepsMeet formStep TakesForm shop oneAfterTheOther := by
  refine ⟨trivial, takesForm_elsewhere rfl, takesForm_elsewhere rfl, takesForm_elsewhere rfl, ?_,
    takesForm_elsewhere rfl, trivial, takesForm_elsewhere rfl, takesForm_elsewhere rfl, trivial⟩
  intro call charge same
  cases same
  refine ⟨⟨Call.shopForm, .head _, rfl⟩, fun message media same => ?_⟩
  cases same
  exact ⟨rfl, List.not_mem_nil⟩

/-- Two calls that have both read the form before one of them deletes it. -/
def bothReadTheForm : List FormEvent :=
  [.completePaymentForm Call.shopCall, .completePaymentForm secondShopCall,
    .advance 0, .advance 0, .advance 0, .advance 1, .advance 1, .advance 1,
    .advance 0, .advance 0, .advance 1, .advance 1]

end World

end Piltover.Stars
