/- source: piltover/app/utils/stars_manager.py
   digest: What a bot gets of the total of its invoice, and which totals can be paid. -/

import Mathlib.Tactic.Common
import Piltover.Stars.Payment

set_option autoImplicit false

namespace Piltover.Stars

theorem botNetStars_of_pos {total : Int} (positive : 1 ≤ total) :
    botNetStars total = total * 1300 / 1410 :=
  if_neg (by omega)

theorem botNetStars_le {total : Int} (positive : 1 ≤ total) : botNetStars total ≤ total := by
  rw [botNetStars_of_pos positive]
  omega

/-- Only one star is too little for the commission to leave anything. -/
theorem botNetStars_pos_iff {total : Int} (positive : 1 ≤ total) :
    0 < botNetStars total ↔ 2 ≤ total := by
  rw [botNetStars_of_pos positive]
  omega

theorem botNetStars_mono {total more : Int} (positive : 1 ≤ total) (grows : total ≤ more) :
    botNetStars total ≤ botNetStars more := by
  rw [botNetStars_of_pos positive, botNetStars_of_pos (positive.trans grows)]
  omega

namespace Call

variable (call : Call) (db : Db) (message : MessageRef) (media : InvoiceMedia)

/-- The bot gets what is left of the total, the payer is charged all of it, and more is left of
more. -/
structure PaysInvoice : Prop where
  net_pos : 0 < botNetStars media.totalAmount
  net_le : botNetStars media.totalAmount ≤ media.totalAmount
  paid : ∃ after, call.pay db (.bot message media) = .ok (.sending message media, after) ∧
    (after.loadBalance call.userId).amount =
      (db.loadBalance call.userId).amount - media.totalAmount ∧
    (after.loadBalance message.authorId).amount =
      (db.loadBalance message.authorId).amount + media.totalAmount * 1300 / 1410
  mono : ∀ more, media.totalAmount ≤ more → botNetStars media.totalAmount ≤ botNetStars more

variable {call db message media}

theorem transferRefusal_of_enough {payer : UserId} {total : Int} {row : UserStarsBalance}
    (positive : 1 ≤ total) (left : 0 < botNetStars total) (held : db.balances payer = some row)
    (enough : total ≤ row.amount) :
    db.transferRefusal payer total (some (botNetStars total)) = none := by
  have below := botNetStars_le positive
  have guard : ¬(botNetStars total ≤ 0 ∨ total < botNetStars total) := by omega
  rw [Db.transferRefusal, if_neg (Int.not_le.mpr positive), Option.getD_some, if_neg guard]
  simp only [held]
  exact if_neg (Int.not_lt.mpr enough)

theorem transferStars_of_accepted {attempt : Attempt} {payer recipient : UserId} {stars net : Int}
    {outbound inbound : Posting} (apart : payer ≠ recipient) (commits : attempt.commits = true)
    (accepted : db.transferRefusal payer stars (some net) = none) :
    ∃ after, db.transferStars attempt payer recipient stars (some net) outbound inbound =
        .ok after ∧
      (after.loadBalance payer).amount = (db.loadBalance payer).amount - stars ∧
      (after.loadBalance recipient).amount = (db.loadBalance recipient).amount + net := by
  have moved : ∃ after, db.transferStars attempt payer recipient stars (some net) outbound inbound =
      .ok after := by
    rw [Db.transferStars, accepted]
    exact ⟨_, if_pos commits⟩
  obtain ⟨after, moved⟩ := moved
  refine ⟨after, moved, ?_⟩
  rw [Db.transferStars, accepted] at moved
  cases (if_pos commits).symm.trans moved
  constructor
  · simp [Db.loadBalance, Db.createTransaction, Db.saveBalance, Function.update_of_ne apart]
  · simp [Db.loadBalance, Db.createTransaction, Db.saveBalance]

/-- A bot invoice can be paid from two stars on: of one star nothing is left for the bot, and the
transfer refuses to credit nothing. -/
theorem pays_invoice_iff {row : UserStarsBalance} (peer : call.payerPeer = .ok ())
    (commits : call.first.commits = true) (apart : call.userId ≠ message.authorId)
    (positive : 1 ≤ media.totalAmount) (held : db.balances call.userId = some row)
    (enough : media.totalAmount ≤ row.amount) :
    call.PaysInvoice db message media ↔ 2 ≤ media.totalAmount := by
  constructor
  · intro pays
    exact (botNetStars_pos_iff positive).mp pays.net_pos
  · intro two
    have left := (botNetStars_pos_iff positive).mpr two
    obtain ⟨after, moved, charged, credited⟩ := transferStars_of_accepted apart commits
      (transferRefusal_of_enough positive left held enough)
    refine ⟨left, botNetStars_le positive, ⟨after, ?_, charged, ?_⟩,
      fun more grows => botNetStars_mono positive grows⟩
    · rw [pay, peer]
      exact map_eq_ok.mpr ⟨after, moved, rfl⟩
    · rw [credited, botNetStars_of_pos positive]

private def coffee (total : Int) : InvoiceMedia where
  title := "Coffee"
  description := ""
  currency := STARS_CURRENCY
  totalAmount := total
  receiptMsgId := none
  payload := []

private def coffeeBot (total : Int) : MessageRef where
  id := 5
  peerId := 9
  authorId := 2
  authorBot := true
  authorSystem := false
  mediaId := 3
  media := some (.ok (coffee total))

private def guest : Call where
  userId := 1
  formId := 4
  invoice := .message ⟨.ok 9, 5⟩
  now := 0
  precheckout := .ok ()
  payerPeer := .ok ()
  first := ⟨"a", "b", 0, true⟩
  second := ⟨"c", "d", 0, true⟩
  receipt := .ok 6

private def purse : Db where
  balances := fun user => if user = 1 then some ⟨10, 0⟩ else none
  transactions := []
  forms := []
  messages := []
  users := [1, 2]
  starsBotUserId := none

theorem two_stars_paid : guest.PaysInvoice purse (coffeeBot 2) (coffee 2) := by
  have held : purse.balances guest.userId = some ⟨10, 0⟩ := rfl
  exact (pays_invoice_iff rfl rfl (by decide) (by decide) held (by decide)).mpr (by decide)

/-- An invoice of one star: it is positive and the payer has ten, yet the transfer refuses. -/
theorem one_star_refused :
    purse.balances guest.userId = some ⟨10, 0⟩ ∧ guest.userId ≠ (coffeeBot 1).authorId ∧
      guest.pay purse (.bot (coffeeBot 1) (coffee 1)) = .error starsAmountInvalid ∧
      ¬ guest.PaysInvoice purse (coffeeBot 1) (coffee 1) := by
  refine ⟨rfl, by decide, rfl, fun pays => ?_⟩
  obtain ⟨after, paid, -⟩ := pays.paid
  cases paid

end Call

end Piltover.Stars
