/- source: piltover/app/utils/stars_manager.py
   digest: Everything that moves stars, in any order, and the journal that explains every balance. -/

import Piltover.Foundation.Book
import Piltover.Foundation.Runs
import Piltover.Stars.Payment

set_option autoImplicit false

namespace Piltover.Stars

open Piltover.Foundation
open Piltover.Foundation.Runs

inductive FormEvent
  | createPaymentForm (formId : FormId) (now : Int) (user : UserId) (invoice : InputInvoice)
  | completePaymentForm (call : Call)
  | advance (i : Nat)

inductive StarsEvent
  | grantStars (attempt : Attempt) (user : UserId) (stars : Int) (title : String)
      (description : Option String)
  | setStarsBalance (attempt : Attempt) (user : UserId) (amount : Int) (title : String)
      (description : Option String)
  | spendStars (attempt : Attempt) (user : UserId) (stars : Int) (posting : Posting)
  | creditStars (attempt : Attempt) (wallet : UserId) (stars : Int) (inbound : Bool)
      (posting : Posting)
  | debitStars (attempt : Attempt) (wallet : UserId) (stars : Int) (posting : Posting)
  | transferStars (attempt : Attempt) (payer recipient : UserId) (stars : Int)
      (recipientStars : Option Int) (outbound inbound : Posting)
  | getOrCreateFor (user : UserId)
  | form (e : FormEvent)

/-- The database and the calls that have begun. `issued` are the identifiers that the snowflake has
given to forms; `redeemed` are the forms that stars have moved for, the last one first. -/
structure World where
  db : Db
  calls : List (Call × Phase)
  issued : List FormId
  redeemed : List FormId

/-- The step completes the credit, the gift or the transfer that the form is for. -/
def Phase.settles : Phase → Phase → Bool
  | .paying _, .done => true
  | .paying _, .sending _ _ => true
  | .crediting _ _ _, .done => true
  | _, _ => false

/-- A call that raises leaves the database as it was. -/
def Db.settle (db : Db) : Except Failure Db → Db
  | .ok db => db
  | .error _ => db

namespace World

def start (messages : List MessageRef) (users : List UserId) (starsBotUserId : Option UserId) :
    World :=
  ⟨⟨fun _ => none, [], [], messages, users, starsBotUserId⟩, [], [], []⟩

/-- `Snowflake.make_id` does not repeat an identifier. -/
def formStep (w : World) : FormEvent → Option World
  | .createPaymentForm formId now user invoice =>
    if formId ∈ w.issued then none
    else match w.db.createPaymentForm formId now user invoice with
      | .error _ => some w
      | .ok db => some { w with db := db, issued := formId :: w.issued }
  | .completePaymentForm call => some { w with calls := w.calls ++ [(call, .start)] }
  | .advance i =>
    match w.calls[i]? with
    | none => none
    | some (call, phase) =>
      let next := call.advance w.db phase
      some { w with
        db := next.2
        calls := w.calls.set i (call, next.1)
        redeemed := if phase.settles next.1 then call.formId :: w.redeemed else w.redeemed }

def step (w : World) : StarsEvent → Option World
  | .grantStars attempt user stars title description =>
    some { w with db := w.db.settle (w.db.grantStars attempt user stars title description) }
  | .setStarsBalance attempt user amount title description =>
    some { w with db := w.db.settle (w.db.setStarsBalance attempt user amount title description) }
  | .spendStars attempt user stars posting =>
    some { w with db := w.db.settle (w.db.spendStars attempt user stars posting) }
  | .creditStars attempt wallet stars inbound posting =>
    some { w with db := w.db.settle (w.db.creditStars attempt wallet stars inbound posting) }
  | .debitStars attempt wallet stars posting =>
    some { w with db := w.db.settle (w.db.debitStars attempt wallet stars posting) }
  | .transferStars attempt payer recipient stars recipientStars outbound inbound =>
    some { w with
      db := w.db.settle
        (w.db.transferStars attempt payer recipient stars recipientStars outbound inbound) }
  | .getOrCreateFor user => some { w with db := w.db.getOrCreateFor user }
  | .form e => w.formStep e

end World

namespace Db

variable (db : Db)

def inboundSum (user : UserId) : Int :=
  ((db.transactions.filter fun t => t.userId = user ∧ t.inbound = true).map
    StarsTransaction.starsAmount).sum

def outboundSum (user : UserId) : Int :=
  ((db.transactions.filter fun t => t.userId = user ∧ t.inbound = false).map
    StarsTransaction.starsAmount).sum

/-- No balance is negative, and the transactions of its user explain it. -/
def Balanced : Prop :=
  ∀ user row, db.balances user = some row →
    0 ≤ row.amount ∧ row.amount = db.inboundSum user - db.outboundSum user

def TransferHasTwoParties (attempt : Attempt) (payer recipient : UserId) (stars : Int)
    (recipientStars : Option Int) : Prop :=
  db.transferRefusal payer stars recipientStars = none → attempt.commits = true →
    payer ≠ recipient

/-- Should the credit go through, then it is entered as one and overdraws nothing. -/
def CreditIsInbound (attempt : Attempt) (wallet : UserId) (stars : Int) (inbound : Bool) : Prop :=
  attempt.commits = true →
    (inbound = true ∨ stars = 0) ∧ 0 ≤ (db.loadBalance wallet).amount + stars

end Db

/-- The books survive the next step of the call. -/
def Call.KeepsBooks (call : Call) (db : Db) : Phase → Prop
  | .paying (.bot message media) =>
    call.payerPeer = .ok () →
      db.TransferHasTwoParties call.first call.userId message.authorId media.totalAmount
        (some (botNetStars media.totalAmount))
  | _ => True

/-- The books survive the event: it is no transfer of a user to itself, and no credit that is
entered as a debit or overdraws the account. -/
def World.KeepsBooks (w : World) : StarsEvent → Prop
  | .grantStars attempt user stars _ _ =>
    w.db.starsBotUserId ≠ none → w.db.CreditIsInbound attempt user stars true
  | .creditStars attempt wallet stars inbound _ =>
    w.db.CreditIsInbound attempt wallet stars inbound
  | .transferStars attempt payer recipient stars recipientStars _ _ =>
    w.db.TransferHasTwoParties attempt payer recipient stars recipientStars
  | .form (.advance i) => ∀ c ∈ w.calls[i]?, c.1.KeepsBooks w.db c.2
  | _ => True

/-- `to_stars_amount`, without the nanos. -/
def StarsTransaction.signedAmount (t : StarsTransaction) : Int :=
  if t.inbound then t.starsAmount else -t.starsAmount

namespace Db

variable (db : Db)

def book : Book UserId where
  held user := (db.loadBalance user).amount
  entries := db.transactions.map fun t => (t.userId, t.signedAmount)

def Rowed : Prop := ∀ t ∈ db.transactions, db.balances t.userId ≠ none

variable {db}

theorem total_book (user : UserId) :
    Book.total db.book.entries user = db.inboundSum user - db.outboundSum user := by
  unfold book inboundSum outboundSum
  generalize db.transactions = transactions
  induction transactions with
  | nil => rfl
  | cons t rest ih =>
    rw [List.map_cons, Book.total_cons, ih]
    rcases eq_or_ne t.userId user with rfl | other
    · rw [Book.total_single_self]
      cases inbound : t.inbound <;> simp [StarsTransaction.signedAmount, inbound] <;> omega
    · rw [Book.total_single_ne other]
      simp [other]

theorem held_of_row {user : UserId} {row : UserStarsBalance}
    (present : db.balances user = some row) : db.book.held user = row.amount := by
  change ((db.balances user).getD ⟨0, 0⟩).amount = row.amount
  rw [present]
  rfl

private theorem solventAt_of_no_row {user : UserId} (rowed : db.Rowed)
    (absent : db.balances user = none) : db.book.SolventAt user := by
  have nothing : db.book.held user = 0 := by
    change ((db.balances user).getD ⟨0, 0⟩).amount = 0
    rw [absent]
    rfl
  have unposted : db.transactions.filter (fun t => t.userId = user) = [] := by
    refine List.filter_eq_nil_iff.mpr fun t mem same => ?_
    exact rowed t mem (of_decide_eq_true same ▸ absent)
  have unexplained : Book.total db.book.entries user = 0 := by
    change ((List.filter _ (List.map _ _)).map Prod.snd).sum = 0
    rw [List.filter_map]
    change (((db.transactions.filter fun t => decide (t.userId = user)).map _).map _).sum = 0
    rw [unposted]
    rfl
  exact ⟨nothing.ge, nothing.trans unexplained.symm⟩

theorem balanced_iff_solvent (rowed : db.Rowed) : db.Balanced ↔ db.book.Solvent := by
  constructor
  · intro balanced user
    cases present : db.balances user with
    | none => exact solventAt_of_no_row rowed present
    | some row =>
      have explained := balanced user row present
      rw [Book.SolventAt, held_of_row present, total_book]
      exact explained
  · intro solvent user row present
    have explained := solvent user
    rw [Book.SolventAt, held_of_row present, total_book] at explained
    exact explained

@[simp] theorem book_saveBalance (user : UserId) (row : UserStarsBalance) :
    (db.saveBalance user row).book =
      { db.book with held := Function.update db.book.held user row.amount } := by
  refine congrArg₂ Book.mk (funext fun other => ?_) rfl
  rcases eq_or_ne other user with rfl | ne
  · rw [Function.update_self]
    exact held_of_row (Function.update_self ..)
  · rw [Function.update_of_ne ne]
    change ((Function.update db.balances user (some row) other).getD ⟨0, 0⟩).amount = _
    rw [Function.update_of_ne ne]
    rfl

@[simp] theorem book_createTransaction (t : StarsTransaction) :
    (db.createTransaction t).book =
      { db.book with entries := db.book.entries ++ [(t.userId, t.signedAmount)] } :=
  congrArg (Book.mk _) (List.map_append ..)

theorem rowed_saveBalance (rowed : db.Rowed) (user : UserId) (row : UserStarsBalance) :
    (db.saveBalance user row).Rowed := by
  intro t mem
  change Function.update db.balances user (some row) t.userId ≠ none
  rcases eq_or_ne t.userId user with same | ne
  · rw [same, Function.update_self]
    exact Option.some_ne_none row
  · rw [Function.update_of_ne ne]
    exact rowed t mem

theorem rowed_createTransaction (rowed : db.Rowed) {t : StarsTransaction}
    (present : db.balances t.userId ≠ none) : (db.createTransaction t).Rowed := by
  intro u mem
  rcases List.mem_append.mp mem with old | new
  · exact rowed u old
  · rw [List.mem_singleton.mp new]
    exact present

theorem book_posting {user : UserId} {row : UserStarsBalance} {change : Int}
    (changed : row.amount = db.book.held user + change) (id : String) (stars : Int)
    (inbound : Bool) (date : Int) (posting : Posting) :
    ((db.saveBalance user row).createTransaction ⟨id, user, stars, inbound, date, posting⟩).book =
      db.book.post user change (if inbound then stars else -stars) := by
  rw [book_createTransaction, book_saveBalance, Book.post, changed]
  rfl

theorem rowed_posting (rowed : db.Rowed) (user : UserId) (row : UserStarsBalance) (id : String)
    (stars : Int) (inbound : Bool) (date : Int) (posting : Posting) :
    ((db.saveBalance user row).createTransaction
      ⟨id, user, stars, inbound, date, posting⟩).Rowed := by
  refine rowed_createTransaction (rowed_saveBalance rowed user row) ?_
  change Function.update db.balances user (some row) user ≠ none
  rw [Function.update_self]
  exact Option.some_ne_none row

theorem settle_ok (db : Db) {result : Except Failure Db} {after : Db}
    (ok : result = .ok after) : db.settle result = after := by
  rw [ok]
  rfl

theorem settle_commit (after : Db) (attempt : Attempt) :
    db.settle (after.commit attempt) = if attempt.commits = true then after else db := by
  unfold commit
  split <;> rfl

theorem rowed_settle_commit {after : Db} (rowed : db.Rowed) (kept : after.Rowed)
    (attempt : Attempt) : (db.settle (after.commit attempt)).Rowed := by
  rw [settle_commit]
  split
  · exact kept
  · exact rowed

private theorem solvent_settle_commit_iff {after : Db} (solvent : db.book.Solvent)
    {attempt : Attempt} {user : UserId} {change entry : Int}
    (posted : after.book = db.book.post user change entry) :
    (db.settle (after.commit attempt)).book.Solvent ↔
      (attempt.commits = true → change = entry ∧ 0 ≤ db.book.held user + change) := by
  rw [settle_commit]
  split
  · rename_i commits
    rw [posted, Book.solvent_post_iff solvent]
    exact ⟨fun kept _ => kept, fun kept => kept commits⟩
  · rename_i rolledBack
    exact ⟨fun _ commits => absurd commits rolledBack, fun _ => solvent⟩

theorem solvent_creditStars_iff (solvent : db.book.Solvent) (attempt : Attempt) (wallet : UserId)
    (stars : Int) (inbound : Bool) (posting : Posting) :
    (db.settle (db.creditStars attempt wallet stars inbound posting)).book.Solvent ↔
      db.CreditIsInbound attempt wallet stars inbound := by
  have changed : (db.loadBalance wallet).amount + stars = db.book.held wallet + stars := rfl
  rw [creditStars, solvent_settle_commit_iff solvent (book_posting changed _ _ _ _ _)]
  refine imp_congr_right fun _ => and_congr_left fun _ => ?_
  cases inbound
  · simp only [Bool.false_eq_true, if_false, false_or]
    omega
  · simp only [if_true, true_or]

theorem rowed_creditStars (rowed : db.Rowed) (attempt : Attempt) (wallet : UserId) (stars : Int)
    (inbound : Bool) (posting : Posting) :
    (db.settle (db.creditStars attempt wallet stars inbound posting)).Rowed := by
  rw [creditStars]
  exact rowed_settle_commit rowed (rowed_posting rowed _ _ _ _ _ _ _) attempt

theorem amount_of_not_refused {user : UserId} {stars : Int}
    (accepted : (match db.balances user with
      | none => some balanceTooLow
      | some balance => if balance.amount < stars then some balanceTooLow else none) = none) :
    stars ≤ db.book.held user := by
  cases present : db.balances user with
  | none =>
    rw [present] at accepted
    cases accepted
  | some row =>
    simp only [present] at accepted
    rw [held_of_row present]
    split at accepted
    · cases accepted
    · omega

theorem debit_of_not_refused {wallet : UserId} {stars : Int}
    (accepted : db.debitRefusal wallet stars = none) : 0 < stars ∧ stars ≤ db.book.held wallet := by
  unfold debitRefusal at accepted
  split at accepted
  · cases accepted
  · exact ⟨by omega, amount_of_not_refused accepted⟩

theorem solvent_debitStars (solvent : db.book.Solvent) (attempt : Attempt) (wallet : UserId)
    (stars : Int) (posting : Posting) :
    (db.settle (db.debitStars attempt wallet stars posting)).book.Solvent := by
  rw [debitStars]
  split
  · exact solvent
  · rename_i accepted
    have covered := (debit_of_not_refused accepted).2
    have changed : (db.loadBalance wallet).amount - stars = db.book.held wallet + -stars :=
      Int.sub_eq_add_neg
    rw [solvent_settle_commit_iff solvent (book_posting changed _ _ _ _ _)]
    exact fun _ => ⟨rfl, by omega⟩

theorem rowed_debitStars (rowed : db.Rowed) (attempt : Attempt) (wallet : UserId) (stars : Int)
    (posting : Posting) : (db.settle (db.debitStars attempt wallet stars posting)).Rowed := by
  rw [debitStars]
  split
  · exact rowed
  · exact rowed_settle_commit rowed (rowed_posting rowed _ _ _ _ _ _ _) attempt

theorem transfer_of_not_refused {payer : UserId} {stars : Int} {recipientStars : Option Int}
    (accepted : db.transferRefusal payer stars recipientStars = none) :
    0 < stars ∧ 0 < recipientStars.getD stars ∧ stars ≤ db.book.held payer := by
  simp only [transferRefusal] at accepted
  split at accepted
  · cases accepted
  · split at accepted
    · cases accepted
    · exact ⟨by omega, by omega, amount_of_not_refused accepted⟩

theorem solvent_transferStars_iff (solvent : db.book.Solvent) (attempt : Attempt)
    (payer recipient : UserId) (stars : Int) (recipientStars : Option Int)
    (outbound inbound : Posting) :
    (db.settle (db.transferStars attempt payer recipient stars recipientStars outbound
        inbound)).book.Solvent ↔
      db.TransferHasTwoParties attempt payer recipient stars recipientStars := by
  unfold transferStars TransferHasTwoParties
  cases refusal : db.transferRefusal payer stars recipientStars with
  | some failure => exact ⟨fun _ accepted => (nomatch accepted), fun _ => solvent⟩
  | none =>
    obtain ⟨pays, gains, affordable⟩ := transfer_of_not_refused refusal
    simp only [settle_commit, forall_const]
    split
    · rename_i commits
      rw [forall_prop_of_true commits,
        ← Book.solvent_move_iff solvent recipient pays gains affordable]
      simp only [book_createTransaction, book_saveBalance, Book.move, List.append_assoc,
        List.singleton_append]
      rfl
    · rename_i rolledBack
      exact ⟨fun _ commits => absurd commits rolledBack, fun _ => solvent⟩

theorem rowed_transferStars (rowed : db.Rowed) (attempt : Attempt) (payer recipient : UserId)
    (stars : Int) (recipientStars : Option Int) (outbound inbound : Posting) :
    (db.settle (db.transferStars attempt payer recipient stars recipientStars outbound
      inbound)).Rowed := by
  unfold transferStars
  split
  · exact rowed
  · refine rowed_settle_commit rowed ?_ attempt
    -- both rows are written first, which is the same as one posting after the other
    exact rowed_posting (rowed_posting rowed payer _ _ _ _ _ _) recipient _ _ _ _ _ _

theorem solvent_grantStars_iff (solvent : db.book.Solvent) (attempt : Attempt) (user : UserId)
    (stars : Int) (title : String) (description : Option String) :
    (db.settle (db.grantStars attempt user stars title description)).book.Solvent ↔
      (db.starsBotUserId ≠ none → db.CreditIsInbound attempt user stars true) := by
  rw [grantStars]
  cases db.starsBotUserId with
  | none => exact ⟨fun _ absent => absurd rfl absent, fun _ => solvent⟩
  | some starsBot =>
    exact (solvent_creditStars_iff solvent attempt user stars true _).trans
      ⟨fun good _ => good, fun good => good (Option.some_ne_none starsBot)⟩

theorem rowed_grantStars (rowed : db.Rowed) (attempt : Attempt) (user : UserId) (stars : Int)
    (title : String) (description : Option String) :
    (db.settle (db.grantStars attempt user stars title description)).Rowed := by
  rw [grantStars]
  split
  · exact rowed
  · exact rowed_creditStars rowed _ _ _ _ _

theorem book_getOrCreateFor (user : UserId) : (db.getOrCreateFor user).book = db.book := by
  rw [getOrCreateFor, book_saveBalance]
  exact congrArg (Book.mk · _) (Function.update_eq_self ..)

theorem solvent_setStarsBalance (solvent : db.book.Solvent) (attempt : Attempt) (user : UserId)
    (amount : Int) (title : String) (description : Option String) :
    (db.settle (db.setStarsBalance attempt user amount title description)).book.Solvent := by
  have changed : amount = db.book.held user + (amount - db.book.held user) := by omega
  have held : (db.loadBalance user).amount = db.book.held user := rfl
  simp only [setStarsBalance]
  split
  · exact solvent
  · split
    · exact solvent
    · split
      · rw [settle_commit]
        split
        · exact (book_getOrCreateFor user).symm ▸ solvent
        · exact solvent
      · split
        · rw [solvent_settle_commit_iff solvent (book_posting changed _ _ _ _ _), if_pos rfl, held]
          exact fun _ => ⟨rfl, by omega⟩
        · rw [solvent_settle_commit_iff solvent (book_posting changed _ _ _ _ _),
            if_neg Bool.false_ne_true, held]
          exact fun _ => ⟨by omega, by omega⟩

theorem rowed_setStarsBalance (rowed : db.Rowed) (attempt : Attempt) (user : UserId)
    (amount : Int) (title : String) (description : Option String) :
    (db.settle (db.setStarsBalance attempt user amount title description)).Rowed := by
  simp only [setStarsBalance]
  split
  · exact rowed
  · split
    · exact rowed
    · split
      · exact rowed_settle_commit rowed (rowed_saveBalance rowed user _) attempt
      · split <;> exact rowed_settle_commit rowed (rowed_posting rowed _ _ _ _ _ _ _) attempt

end Db

def Phase.Positive : Phase → Prop
  | .crediting _ stars _ => 0 < stars
  | _ => True

def Phase.movesStars : Phase → Bool
  | .paying _ | .crediting _ _ _ => true
  | _ => false

namespace Call

variable {call : Call} {db : Db} {phase : Phase}

theorem advance_money (still : phase.movesStars = false) :
    (call.advance db phase).2.balances = db.balances ∧
      (call.advance db phase).2.transactions = db.transactions := by
  cases phase
  case paying | crediting => cases still
  all_goals
    rw [advance]
    (repeat' split) <;> exact ⟨rfl, rfl⟩

theorem advance_crediting (giftUser : UserId) (stars : Int) (paidWithStars : Bool) :
    (call.advance db (.crediting giftUser stars paidWithStars)).2 =
      db.settle (db.creditStars call.second giftUser stars true
        (giftPosting s!"Received {stars} Telegram Stars" call.userId)) := by
  rw [advance]
  split <;> rename_i result <;> rw [result] <;> rfl

private theorem book_congr {db₁ db₂ : Db}
    (same : db₁.balances = db₂.balances ∧ db₁.transactions = db₂.transactions) :
    db₁.book = db₂.book := by
  simp only [Db.book, Db.loadBalance, same]

theorem rowed_advance (rowed : db.Rowed) : (call.advance db phase).2.Rowed := by
  cases phase
  case crediting =>
    rw [advance_crediting]
    exact Db.rowed_creditStars rowed _ _ _ _ _
  case paying charge =>
    rcases call.advance_paying charge with ⟨failure, -, same⟩ | ⟨phase, after, paid, same⟩
    · rw [same]
      exact rowed
    · rw [same]
      cases paid with
      | topup invoice after _ credited =>
        rw [← Db.settle_ok db credited]
        exact Db.rowed_creditStars rowed _ _ _ _ _
      | giftWithStars invoice giftUser after _ debited =>
        rw [← Db.settle_ok db debited]
        exact Db.rowed_debitStars rowed _ _ _ _
      | gift => exact Db.rowed_saveBalance rowed _ _
      | bot message media after transferred =>
        rw [← Db.settle_ok db transferred]
        exact Db.rowed_transferStars rowed _ _ _ _ _ _ _
  all_goals
    rw [Db.Rowed, (advance_money rfl).1, (advance_money rfl).2]
    exact rowed

theorem advance_positive : (call.advance db phase).1.Positive := by
  cases phase
  case paying charge =>
    rcases call.advance_paying charge with ⟨failure, -, same⟩ | ⟨phase, after, paid, same⟩
    · rw [same]
      exact trivial
    · rw [same]
      cases paid with
      | topup | bot => exact trivial
      | giftWithStars invoice | gift invoice => exact invoice.positive
  all_goals
    rw [advance]
    (repeat' split) <;> exact trivial

private theorem solvent_paying_bot_iff (solvent : db.book.Solvent) (message : MessageRef)
    (media : InvoiceMedia) :
    (call.advance db (.paying (.bot message media))).2.book.Solvent ↔
      call.KeepsBooks db (.paying (.bot message media)) := by
  rw [advance, pay]
  cases peer : call.payerPeer with
  | error failure =>
    refine ⟨fun _ found => ?_, fun _ => solvent⟩
    rw [peer] at found
    cases found
  | ok found =>
    have kept := Db.solvent_transferStars_iff solvent call.first call.userId message.authorId
      media.totalAmount (some (botNetStars media.totalAmount))
      (invoicePosting message media message.authorId) (invoicePosting message media call.userId)
    refine Iff.trans ?_ (kept.trans ⟨fun two _ => two, fun two => two peer⟩)
    cases db.transferStars call.first call.userId message.authorId media.totalAmount
      (some (botNetStars media.totalAmount)) (invoicePosting message media message.authorId)
      (invoicePosting message media call.userId) <;> exact Iff.rfl

theorem solvent_advance_iff (solvent : db.book.Solvent) (positive : phase.Positive) :
    (call.advance db phase).2.book.Solvent ↔ call.KeepsBooks db phase := by
  cases phase
  case crediting giftUser stars paidWithStars =>
    have covered : 0 ≤ (db.loadBalance giftUser).amount + stars :=
      Int.add_nonneg (solvent giftUser).1 positive.le
    rw [advance_crediting, Db.solvent_creditStars_iff solvent]
    exact ⟨fun _ => trivial, fun _ _ => ⟨.inl rfl, covered⟩⟩
  case paying charge =>
    cases charge with
    | bot message media => exact solvent_paying_bot_iff solvent message media
    | store invoice paidWithStars =>
      refine ⟨fun _ => trivial, fun _ => ?_⟩
      rcases call.advance_paying (.store invoice paidWithStars) with
        ⟨failure, -, same⟩ | ⟨phase, after, paid, same⟩
      · rw [same]
        exact solvent
      · rw [same]
        cases paid with
        | topup _ _ _ credited =>
          have covered : 0 ≤ (db.loadBalance call.userId).amount + invoice.stars :=
            Int.add_nonneg (solvent call.userId).1 invoice.positive.le
          rw [← Db.settle_ok db credited, Db.solvent_creditStars_iff solvent]
          exact fun _ => ⟨.inl rfl, covered⟩
        | giftWithStars _ giftUser _ _ debited =>
          rw [← Db.settle_ok db debited]
          exact Db.solvent_debitStars solvent _ _ _ _
        | gift => exact (Db.book_getOrCreateFor call.userId).symm ▸ solvent
  all_goals
    rw [book_congr (advance_money rfl)]
    exact ⟨fun _ => trivial, fun _ => solvent⟩

theorem createPaymentForm_money {formId : FormId} {now : Int} {user : UserId}
    {invoice : InputInvoice} {after : Db}
    (created : db.createPaymentForm formId now user invoice = .ok after) :
    after.balances = db.balances ∧ after.transactions = db.transactions := by
  unfold Db.createPaymentForm at created
  (repeat' split at created) <;> cases created <;> exact ⟨rfl, rfl⟩

end Call

namespace World

/-- The books are in order, and no call has anything but bought stars to credit. -/
structure Accounted (w : World) : Prop where
  solvent : w.db.book.Solvent
  rowed : w.db.Rowed
  positive : ∀ c ∈ w.calls, c.2.Positive

theorem Accounted.balanced {w : World} (accounted : w.Accounted) : w.db.Balanced :=
  (Db.balanced_iff_solvent accounted.rowed).mpr accounted.solvent

/-- What a step makes of books in order: all but their solvency is kept, and that under the
condition for the event. -/
structure StepKeeps (w after : World) (e : StarsEvent) : Prop where
  rowed : after.db.Rowed
  positive : ∀ c ∈ after.calls, c.2.Positive
  solvent_iff : after.db.book.Solvent ↔ w.KeepsBooks e

private theorem stepKeeps_form {w after : World} {e : FormEvent} (accounted : w.Accounted)
    (happens : w.formStep e = some after) : w.StepKeeps after (.form e) := by
  obtain ⟨solvent, rowed, positive⟩ := accounted
  cases e with
  | createPaymentForm formId now user invoice =>
    simp only [formStep] at happens
    split at happens
    · cases happens
    · split at happens <;> cases happens
      · exact ⟨rowed, positive, fun _ => trivial, fun _ => solvent⟩
      · rename_i db created
        have money := Call.createPaymentForm_money created
        refine ⟨?_, positive, fun _ => trivial, fun _ => ?_⟩
        · rw [Db.Rowed, money.1, money.2]
          exact rowed
        · exact Call.book_congr money ▸ solvent
  | completePaymentForm call =>
    cases happens
    refine ⟨rowed, fun c mem => ?_, fun _ => trivial, fun _ => solvent⟩
    rcases List.mem_append.mp mem with old | new
    · exact positive c old
    · rw [List.mem_singleton.mp new]
      exact trivial
  | advance i =>
    simp only [formStep] at happens
    split at happens
    · cases happens
    · rename_i call phase present
      cases happens
      have here := positive _ (List.mem_of_getElem? present)
      refine ⟨Call.rowed_advance rowed, fun c mem => ?_, ?_⟩
      · rcases List.mem_or_eq_of_mem_set mem with old | rfl
        · exact positive c old
        · exact Call.advance_positive
      · refine (Call.solvent_advance_iff solvent here).trans ?_
        rw [KeepsBooks, present]
        exact ⟨fun kept c same => Option.some.inj same ▸ kept, fun kept => kept _ rfl⟩

theorem stepKeeps {w after : World} {e : StarsEvent} (accounted : w.Accounted)
    (happens : w.step e = some after) : w.StepKeeps after e := by
  obtain ⟨solvent, rowed, positive⟩ := accounted
  cases e with
  | form e => exact stepKeeps_form ⟨solvent, rowed, positive⟩ happens
  | grantStars =>
    cases happens
    exact ⟨Db.rowed_grantStars rowed _ _ _ _ _, positive,
      Db.solvent_grantStars_iff solvent _ _ _ _ _⟩
  | setStarsBalance =>
    cases happens
    exact ⟨Db.rowed_setStarsBalance rowed _ _ _ _ _, positive,
      fun _ => trivial, fun _ => Db.solvent_setStarsBalance solvent _ _ _ _ _⟩
  | spendStars | debitStars =>
    cases happens
    exact ⟨Db.rowed_debitStars rowed _ _ _ _, positive,
      fun _ => trivial, fun _ => Db.solvent_debitStars solvent _ _ _ _⟩
  | creditStars =>
    cases happens
    exact ⟨Db.rowed_creditStars rowed _ _ _ _ _, positive,
      Db.solvent_creditStars_iff solvent _ _ _ _ _⟩
  | transferStars =>
    cases happens
    exact ⟨Db.rowed_transferStars rowed _ _ _ _ _ _ _, positive,
      Db.solvent_transferStars_iff solvent _ _ _ _ _ _ _⟩
  | getOrCreateFor user =>
    cases happens
    exact ⟨Db.rowed_saveBalance rowed _ _, positive,
      fun _ => trivial, fun _ => (Db.book_getOrCreateFor user).symm ▸ solvent⟩

variable {messages : List MessageRef} {users : List UserId} {starsBotUserId : Option UserId}

theorem accounted_start : (start messages users starsBotUserId).Accounted where
  solvent _ := ⟨le_rfl, rfl⟩
  rowed _ mem := nomatch mem
  positive _ mem := nomatch mem

/-- Whatever moves stars, in whatever order: all balances are covered and explained all along a
run exactly if no transfer in it has its payer for recipient, and no credit in it is entered as a
debit or leaves a negative balance. -/
theorem ledger_balanced_iff (messages : List MessageRef) (users : List UserId)
    (starsBotUserId : Option UserId) (es : List StarsEvent) (w : World)
    (run : runFrom step (start messages users starsBotUserId) es = some w) :
    HoldsAlong step (fun w => w.db.Balanced) (start messages users starsBotUserId) es ↔
      StepsMeet step KeepsBooks (start messages users starsBotUserId) es := by
  refine holdsAlong_iff_stepsMeet (fun w (accounted : Accounted w) => accounted.balanced) ?_ ?_
    accounted_start run
  · intro w e after accounted good happens
    have kept := stepKeeps accounted happens
    exact ⟨kept.solvent_iff.mpr good, kept.rowed, kept.positive⟩
  · intro w e after accounted bad happens balanced
    have kept := stepKeeps accounted happens
    exact bad (kept.solvent_iff.mp ((Db.balanced_iff_solvent kept.rowed).mp balanced))

def committed (transactionId pairedId : String) : Attempt := ⟨transactionId, pairedId, 0, true⟩

def plainPosting : Posting := ⟨.peer, none, "Telegram Stars", none, false, none, none⟩

/-- A grant of 100 stars to user 1, who then passes 40 on to user 2. -/
theorem ledger_balanced_iff_gift :
    HoldsAlong step (fun w => w.db.Balanced) (start [] [1, 2] (some 3))
      [.grantStars (committed "a" "b") 1 100 "Stars Bonus" none,
        .transferStars (committed "c" "d") 1 2 40 none plainPosting plainPosting] :=
  (ledger_balanced_iff [] [1, 2] (some 3) _ _ rfl).mpr
    ⟨fun _ _ => ⟨.inl rfl, by decide⟩, fun _ _ => by decide, trivial⟩

/-- A transfer of 10 stars from user 1 to user 1 leaves 110 of 100 stars. -/
theorem transfer_to_self_mints :
    ¬ HoldsAlong step (fun w => w.db.Balanced) (start [] [1] (some 3))
      [.grantStars (committed "a" "b") 1 100 "Stars Bonus" none,
        .transferStars (committed "c" "d") 1 1 10 none plainPosting plainPosting] := by
  intro along
  have balanced := along _ _ (List.prefix_refl _) rfl
  have explained := (balanced 1 ⟨110, 0⟩ rfl).2
  exact absurd explained (by decide)

end World

end Piltover.Stars
