/- source: piltover/app/utils/stars_manager.py
   digest: What is left of a form and of the money when a payment with stars is refused. -/

import Piltover.Stars.Payment

set_option autoImplicit false

namespace Piltover.Stars

/-- An upper bound on the steps that a call has yet to take. -/
def Phase.ahead : Phase → Nat
  | .start => 6
  | .loading _ _ => 5
  | .precheckout _ _ => 4
  | .deleting _ => 3
  | .paying _ => 2
  | .checkingPaid _ | .expiring | .crediting _ _ _ | .sending _ _ => 1
  | .done | .failed _ => 0

namespace Call

variable (call : Call) (db : Db)

def MovesStars : Phase → Prop
  | .paying (.store invoice paidWithStars) => invoice.target ≠ .topup ∧ paidWithStars = true
  | .paying (.bot _ _) => call.payerPeer = .ok ()
  | .crediting _ _ paidWithStars => paidWithStars = true
  | _ => False

def RefusedAt (phase : Phase) (here : Db) : Prop :=
  (∃ n, call.run n (.start, db) = (phase, here)) ∧ call.MovesStars phase ∧
    ∃ failure, (call.advance here phase).1 = .failed failure

/-- The balance is too low, the amount is refused, or the credit of the recipient fails. -/
def Refused : Prop := ∃ phase here, call.RefusedAt db phase here

/-- The call changes no balance, records no transaction and leaves its form. -/
def LeavesAsItWas : Prop :=
  let after := (call.completePaymentForm db).2
  after.balances = db.balances ∧ after.transactions = db.transactions ∧
    ∀ form, db.getForm call.formId call.userId = some form →
      after.getForm call.formId call.userId = some form

variable {call db} {phase : Phase} {here : Db}

def OnTheWay (call : Call) (db here : Db) : Phase → Prop
  | .start | .checkingPaid _ => here = db
  | .loading _ _ | .precheckout _ _ | .expiring | .deleting _ =>
    here = db ∧ ∃ form, db.getForm call.formId call.userId = some form
  | .paying _ =>
    here = db.deleteForm call.formId ∧ ∃ form, db.getForm call.formId call.userId = some form
  | .crediting _ _ paidWithStars =>
    (∃ form, db.getForm call.formId call.userId = some form) ∧
      here.forms = (db.deleteForm call.formId).forms ∧
      (paidWithStars = true → here.transactions.length = db.transactions.length + 1)
  | .sending _ _ | .done | .failed _ => True

private theorem debitStars_ok {attempt : Attempt} {wallet : UserId} {stars : Int}
    {posting : Posting} {after : Db} (ok : here.debitStars attempt wallet stars posting = .ok after) :
    after.forms = here.forms ∧ after.transactions.length = here.transactions.length + 1 := by
  rw [Db.debitStars] at ok
  split at ok
  · cases ok
  · simp only [Db.commit] at ok
    split at ok <;> cases ok
    exact ⟨rfl, List.length_append⟩

private theorem onTheWay_paying {charge : Charge} (way : call.OnTheWay db here (.paying charge)) :
    call.OnTheWay db (call.advance here (.paying charge)).2
      (call.advance here (.paying charge)).1 := by
  obtain ⟨rfl, found⟩ := way
  rcases call.advance_paying charge with ⟨failure, -, same⟩ | ⟨phase, after, paid, same⟩
  · rw [same]
    exact trivial
  · rw [same]
    cases paid with
    | topup | bot => exact trivial
    | gift => exact ⟨found, rfl, fun stars => nomatch stars⟩
    | giftWithStars invoice giftUser after _ debited =>
      obtain ⟨forms, transactions⟩ := debitStars_ok debited
      exact ⟨found, forms, fun _ => transactions⟩

theorem onTheWay_advance (way : call.OnTheWay db here phase) :
    call.OnTheWay db (call.advance here phase).2 (call.advance here phase).1 := by
  cases phase with
  | start =>
    obtain rfl : here = db := way
    rw [advance]
    (repeat' split) <;> first | exact trivial | exact ⟨rfl, _, by assumption⟩ | exact rfl
  | checkingPaid msgId =>
    rw [advance]
    split <;> exact trivial
  | loading form invoice =>
    rw [advance]
    (repeat' split) <;> first | exact trivial | exact way
  | precheckout message media =>
    rw [advance]
    (repeat' split) <;> first | exact trivial | exact way
  | expiring => exact trivial
  | deleting charge =>
    obtain ⟨rfl, found⟩ := way
    exact ⟨rfl, found⟩
  | paying charge => exact onTheWay_paying way
  | crediting giftUser stars paidWithStars =>
    rw [advance]
    split <;> exact trivial
  | sending message media =>
    rw [advance]
    split <;> exact trivial
  | done | failed => exact trivial

theorem ahead_advance (phase : Phase) (here : Db) :
    (call.advance here phase).1.ahead ≤ phase.ahead - 1 := by
  cases phase
  case paying charge =>
    rcases call.advance_paying charge with ⟨failure, -, same⟩ | ⟨phase, after, paid, same⟩
    · rw [same]
      exact Nat.zero_le _
    · rw [same]
      cases paid with
      | topup => exact Nat.zero_le _
      | giftWithStars | gift | bot => exact le_rfl
  all_goals
    rw [advance]
    (repeat' split) <;> simp only [Phase.ahead] <;> omega

theorem run_add (m n : Nat) (at_ : Phase × Db) :
    call.run (m + n) at_ = call.run n (call.run m at_) := by
  induction m generalizing at_ with
  | zero => rw [Nat.zero_add, run]
  | succ m ih => rw [Nat.succ_add, run, ih, run]

theorem run_succ (n : Nat) (at_ : Phase × Db) :
    call.run (n + 1) at_ = call.advance (call.run n at_).2 (call.run n at_).1 :=
  run_add n 1 at_

theorem run_failed (n : Nat) (failure : Failure) (here : Db) :
    call.run n (.failed failure, here) = (.failed failure, here) := by
  induction n with
  | zero => rfl
  | succ n ih => exact ih

theorem onTheWay_run (call : Call) (db : Db) (n : Nat) :
    call.OnTheWay db (call.run n (.start, db)).2 (call.run n (.start, db)).1 := by
  induction n with
  | zero => exact rfl
  | succ n ih =>
    rw [run_succ]
    exact onTheWay_advance ih

theorem ahead_run (call : Call) (db : Db) (n : Nat) : (call.run n (.start, db)).1.ahead ≤ 6 - n := by
  induction n with
  | zero => exact le_rfl
  | succ n ih =>
    rw [run_succ]
    have fewer := call.ahead_advance (call.run n (.start, db)).1 (call.run n (.start, db)).2
    omega

private theorem refusal_changes_nothing (moves : call.MovesStars phase) {failure : Failure}
    (raises : (call.advance here phase).1 = .failed failure) :
    call.advance here phase = (.failed failure, here) := by
  cases phase with
  | paying charge =>
    rcases call.advance_paying charge with ⟨failure', -, same⟩ | ⟨phase, after, paid, same⟩
    · rw [same] at raises ⊢
      rw [← raises]
    · rw [same] at raises
      cases paid <;> cases raises
  | crediting giftUser stars paidWithStars =>
    rw [advance] at raises ⊢
    split at raises
    · rename_i refused
      cases raises
      rfl
    · cases raises
  | _ => exact moves.elim

theorem RefusedAt.outcome (refused : call.RefusedAt db phase here) :
    ∃ failure, call.completePaymentForm db = (.failed failure, here) := by
  obtain ⟨⟨n, reached⟩, moves, failure, raises⟩ := refused
  have ended : call.run (n + 1) (.start, db) = (.failed failure, here) := by
    rw [run_succ, reached]
    exact refusal_changes_nothing moves raises
  have some_ahead : 1 ≤ phase.ahead := by
    cases phase with
    | paying => exact Nat.le_succ 1
    | crediting => exact le_rfl
    | _ => exact moves.elim
  have few : n ≤ 5 := by
    have ahead := ahead_run call db n
    rw [reached] at ahead
    change phase.ahead ≤ 6 - n at ahead
    omega
  refine ⟨failure, ?_⟩
  have split_run : 6 = n + 1 + (5 - n) := by omega
  rw [completePaymentForm, split_run, run_add, ended, run_failed]

private theorem form_gone (forms : here.forms = (db.deleteForm call.formId).forms) :
    here.getForm call.formId call.userId = none := by
  rw [Db.getForm, forms]
  refine List.find?_eq_none.mpr fun form mem matching => ?_
  have kept := of_decide_eq_true (List.mem_filter.mp mem).2
  exact kept (of_decide_eq_true matching).1

theorem RefusedAt.form_is_gone (refused : call.RefusedAt db phase here) :
    (∃ form, db.getForm call.formId call.userId = some form) ∧
      here.getForm call.formId call.userId = none := by
  obtain ⟨⟨n, reached⟩, moves, -⟩ := refused
  have way := onTheWay_run call db n
  rw [reached] at way
  cases phase with
  | paying charge =>
    obtain ⟨rfl, found⟩ := way
    exact ⟨found, form_gone rfl⟩
  | crediting giftUser stars paidWithStars =>
    obtain ⟨found, forms, -⟩ := way
    exact ⟨found, form_gone forms⟩
  | _ => exact moves.elim

/-- A refused call leaves the money untouched exactly if it is the first step of the payment that is
refused: a gift whose second step fails has been debited for good. -/
theorem RefusedAt.money_kept_iff (refused : call.RefusedAt db phase here) :
    (∃ failure, call.completePaymentForm db = (.failed failure, here)) ∧
      (here.balances = db.balances ∧ here.transactions = db.transactions ↔
        ∃ charge, phase = .paying charge) := by
  refine ⟨refused.outcome, ?_⟩
  obtain ⟨⟨n, reached⟩, moves, -⟩ := refused
  have way := onTheWay_run call db n
  rw [reached] at way
  cases phase with
  | paying charge =>
    obtain ⟨rfl, -⟩ := way
    exact ⟨fun _ => ⟨charge, rfl⟩, fun _ => ⟨rfl, rfl⟩⟩
  | crediting giftUser stars paidWithStars =>
    obtain ⟨-, -, debited⟩ := way
    refine ⟨fun kept => ?_, fun ⟨charge, same⟩ => nomatch same⟩
    have longer := debited moves
    rw [kept.2] at longer
    omega
  | _ => exact moves.elim

/-- No refused payment leaves everything as it was: the form is deleted before the stars move. -/
theorem refused_payment_not_atomic (call : Call) (db : Db) (refused : call.Refused db) :
    ¬ call.LeavesAsItWas db := by
  obtain ⟨phase, here, refused⟩ := refused
  obtain ⟨failure, outcome⟩ := refused.outcome
  obtain ⟨⟨form, found⟩, gone⟩ := refused.form_is_gone
  intro ⟨_, _, kept⟩
  have still := kept form found
  rw [outcome, gone] at still
  cases still

def shopInvoice : MessageRef where
  id := 7
  peerId := 2
  authorId := 2
  authorBot := true
  authorSystem := false
  mediaId := 1
  media := some (.ok ⟨"Coffee", "One cup", STARS_CURRENCY, 50, none, []⟩)

def shopForm : StarsPaymentForm :=
  ⟨1, 1, .botInvoice, 50, STARS_CURRENCY, 50, none, some 2, some 7, some [], 600⟩

/-- User 1 has some stars, and a form for the invoice. -/
def shopDb (stars : Int) : Db where
  balances user := if user = 1 then some ⟨stars, 0⟩ else none
  transactions := []
  forms := [shopForm]
  messages := [shopInvoice]
  users := [1, 2]
  starsBotUserId := some 3

def shopCall : Call where
  userId := 1
  formId := 1
  invoice := .message ⟨.ok 2, 7⟩
  now := 0
  precheckout := .ok ()
  payerPeer := .ok ()
  first := ⟨"a", "b", 0, true⟩
  second := ⟨"c", "d", 0, true⟩
  receipt := .ok 8

private theorem shopCall_refusedAt : shopCall.RefusedAt (shopDb 20)
    (.paying (.bot shopInvoice ⟨"Coffee", "One cup", STARS_CURRENCY, 50, none, []⟩))
    ((shopDb 20).deleteForm 1) :=
  ⟨⟨4, rfl⟩, rfl, balanceTooLow, rfl⟩

private theorem shopCall_refused : shopCall.Refused (shopDb 20) := ⟨_, _, shopCall_refusedAt⟩

theorem refused_payment_not_atomic_too_low : ¬ shopCall.LeavesAsItWas (shopDb 20) :=
  refused_payment_not_atomic shopCall (shopDb 20) shopCall_refused

/-- User 1 has fifty stars, and a form for a gift of ten to user 2. -/
def giftDb : Db :=
  { shopDb 50 with
    forms := [⟨1, 1, .gift, 10, STARS_CURRENCY, 10, some 2, none, none, none, 600⟩] }

/-- The credit of the receiver does not commit. -/
def giftCall : Call :=
  { shopCall with
    invoice := .stars (.gift (.ok 2) 10 STARS_CURRENCY 10)
    second := ⟨"c", "d", 0, false⟩ }

private theorem giftCall_refused : giftCall.RefusedAt giftDb (.crediting 2 10 true)
    (giftCall.run 3 (.start, giftDb)).2 :=
  ⟨⟨3, rfl⟩, rfl, .other, rfl⟩

/-- Twenty stars do not pay for fifty, and nothing is charged; ten stars that the receiver does not
get are gone. -/
theorem money_kept_too_low :
    ((shopCall.completePaymentForm (shopDb 20)).2.balances = (shopDb 20).balances ∧
        (shopCall.completePaymentForm (shopDb 20)).2.transactions = (shopDb 20).transactions) ∧
      ¬ ((giftCall.completePaymentForm giftDb).2.balances = giftDb.balances ∧
        (giftCall.completePaymentForm giftDb).2.transactions = giftDb.transactions) := by
  constructor
  · obtain ⟨⟨failure, outcome⟩, kept⟩ := shopCall_refusedAt.money_kept_iff
    rw [outcome]
    exact kept.mpr ⟨_, rfl⟩
  · obtain ⟨⟨failure, outcome⟩, kept⟩ := giftCall_refused.money_kept_iff
    rw [outcome]
    intro same
    obtain ⟨charge, paying⟩ := kept.mp same
    cases paying

/-- Twenty stars do not pay for fifty, and the form is gone. -/
theorem balance_too_low_loses_form :
    shopCall.Refused (shopDb 20) ∧ ¬ shopCall.LeavesAsItWas (shopDb 20) := by
  refine ⟨shopCall_refused, fun ⟨_, _, kept⟩ => ?_⟩
  have still : (shopCall.completePaymentForm (shopDb 20)).2.getForm 1 1 = some shopForm :=
    kept shopForm rfl
  cases still

end Call

end Piltover.Stars
