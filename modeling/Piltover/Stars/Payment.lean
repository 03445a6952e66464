/- source: piltover/app/utils/stars_manager.py
   digest: Payment forms, and the calls that redeem them, from one suspension to the next. -/

import Piltover.Stars.Balance

set_option autoImplicit false

namespace Piltover.Stars

/-- `InputStorePaymentPurpose`; `giftUser` is what the peer query makes of the receiver. -/
inductive InputStorePayment
  | topup (stars : Int) (currency : String) (amount : Int)
  | gift (giftUser : Except Failure UserId) (stars : Int) (currency : String) (amount : Int)
  | unsupported

/-- `peer` is what `Peer.from_input_peer_raise` makes of the given peer. -/
structure InputInvoiceMessage where
  peer : Except Failure Nat
  msgId : Nat

inductive InputInvoice
  | message (invoice : InputInvoiceMessage)
  | stars (purpose : InputStorePayment)
  | unsupported

/-- Who gets the stars of a store purchase. -/
inductive StoreTarget
  | topup
  | gift (giftUser : UserId)
  deriving DecidableEq, Repr

/-- What `_parse_stars_invoice` returns. -/
structure StarsInvoice where
  target : StoreTarget
  stars : Int
  positive : 0 < stars
  currency : String
  amount : Int

def invoiceInvalid : Failure := .rpc 400 "INVOICE_INVALID"

def messageIdInvalid : Failure := .rpc 400 "MESSAGE_ID_INVALID"

def formExpired : Failure := .rpc 400 "FORM_EXPIRED"

def StoreTarget.purpose : StoreTarget → Purpose
  | .topup => .topup
  | .gift _ => .gift

def StoreTarget.giftUserId : StoreTarget → Option UserId
  | .topup => none
  | .gift giftUser => some giftUser

def parseStarsInvoice : InputInvoice → Except Failure StarsInvoice
  | .stars (.topup stars currency amount) =>
    if positive : 0 < stars then .ok ⟨.topup, stars, positive, currency, amount⟩
    else .error starsAmountInvalid
  | .stars (.gift giftUser stars currency amount) =>
    if positive : 0 < stars then
      match giftUser with
      | .error failure => .error failure
      | .ok giftUser => .ok ⟨.gift giftUser, stars, positive, currency, amount⟩
    else .error starsAmountInvalid
  | .stars .unsupported | .message _ | .unsupported => .error invoiceInvalid

namespace StarsPaymentForm

def FORM_TTL_SECONDS : Int := 10 * 60

def isExpired (form : StarsPaymentForm) (now : Int) : Bool := form.expiresAt < now

/-- The comparisons of `complete_payment_form`. -/
def storeMismatch (form : StarsPaymentForm) (invoice : StarsInvoice) : Bool :=
  form.purpose ≠ invoice.target.purpose ∨ form.stars ≠ invoice.stars ∨
    invoice.target.purpose = .gift ∧ form.giftUserId ≠ invoice.target.giftUserId

/-- The comparisons of `_complete_bot_payment_form`. -/
def botMismatch (form : StarsPaymentForm) (message : MessageRef) (media : InvoiceMedia) : Bool :=
  form.purpose ≠ .botInvoice ∨ form.stars ≠ media.totalAmount ∨
    form.botUserId ≠ some message.authorId ∨ form.messageId ≠ some message.id ∨
    form.payload ≠ none ∧ form.payload ≠ some media.payload

end StarsPaymentForm

namespace Db

variable (db : Db)

/-- `StarsPaymentForm.get_or_none(id=…, user_id=…)`. -/
def getForm (formId : FormId) (user : UserId) : Option StarsPaymentForm :=
  db.forms.find? fun form => form.id = formId ∧ form.userId = user

/-- `form.delete()`, which does not notice when the row has gone already. -/
def deleteForm (formId : FormId) : Db :=
  { db with forms := db.forms.filter fun form => form.id ≠ formId }

def loadBotInvoiceMessage (invoice : InputInvoiceMessage) :
    Except Failure (MessageRef × InvoiceMedia) :=
  match invoice.peer with
  | .error failure => .error failure
  | .ok peer =>
    match db.messages.find? fun m => m.id = invoice.msgId ∧ m.peerId = peer with
    | none => .error messageIdInvalid
    | some message =>
      if ¬ message.authorBot then .error messageIdInvalid
      else match message.media with
        | none => .error invoiceInvalid
        | some (.error failure) => .error failure
        | some (.ok media) =>
          if media.currency ≠ STARS_CURRENCY then
            .error (.rpc 400 "CURRENCY_TOTAL_AMOUNT_INVALID")
          else if media.receiptMsgId ≠ none then .error (.rpc 400 "MEDIA_ALREADY_PAID")
          else .ok (message, media)

/-- The test of `_raise_if_invoice_already_paid`. -/
def invoiceAlreadyPaid (user : UserId) (msgId : Nat) : Bool :=
  db.transactions.any fun t => t.userId = user ∧ t.posting.msgId = some msgId ∧ t.inbound = false

/-- `_update_invoice_receipt`, the last write of a bot payment. -/
def updateInvoiceReceipt (message : MessageRef) (media : InvoiceMedia) (receiptMsgId : Nat) : Db :=
  { db with
    messages := db.messages.map fun m =>
      if m.mediaId = message.mediaId then
        { m with media := some (.ok { media with receiptMsgId := some receiptMsgId }) }
      else m }

def createPaymentForm (formId : FormId) (now : Int) (user : UserId) (invoice : InputInvoice) :
    Except Failure Db :=
  let create (form : StarsPaymentForm) : Except Failure Db :=
    .ok { db with forms := db.forms ++ [form] }
  let expiresAt := now + StarsPaymentForm.FORM_TTL_SECONDS
  match invoice with
  | .message invoice =>
    match db.loadBotInvoiceMessage invoice with
    | .error failure => .error failure
    | .ok (message, media) =>
      create ⟨formId, user, .botInvoice, media.totalAmount, media.currency, media.totalAmount,
        none, some message.authorId, some message.id, some media.payload, expiresAt⟩
  | invoice =>
    match parseStarsInvoice invoice with
    | .error failure => .error failure
    | .ok parsed =>
      if ∃ giftUser ∈ parsed.target.giftUserId, giftUser ∉ db.users then
        .error (.rpc 400 "USER_ID_INVALID")
      else create ⟨formId, user, parsed.target.purpose, parsed.stars, parsed.currency,
        parsed.amount, parsed.target.giftUserId, none, none, none, expiresAt⟩

end Db

/-- A call of `complete_payment_form`, with what the world will answer it: the time of its expiry
test, the bot's answer to the precheckout, the second look at the peer, the outcome of its database
transactions and the message that becomes the receipt. -/
structure Call where
  userId : UserId
  formId : FormId
  invoice : InputInvoice
  now : Int
  precheckout : Except Failure Unit
  payerPeer : Except Failure Unit
  first : Attempt
  second : Attempt
  receipt : Except Failure Nat

/-- A payment that has passed the checks. -/
inductive Charge
  | store (invoice : StarsInvoice) (paidWithStars : Bool)
  | bot (message : MessageRef) (media : InvoiceMedia)

/-- Where a call is suspended. -/
inductive Phase
  | start
  | checkingPaid (msgId : Nat)
  | loading (form : StarsPaymentForm) (invoice : InputInvoiceMessage)
  | precheckout (message : MessageRef) (media : InvoiceMedia)
  | expiring
  | deleting (charge : Charge)
  | paying (charge : Charge)
  | crediting (giftUser : UserId) (stars : Int) (paidWithStars : Bool)
  | sending (message : MessageRef) (media : InvoiceMedia)
  | done
  | failed (failure : Failure)

namespace Call

variable (call : Call)

def topupPosting (stars : Int) : Posting where
  peerType := .fragment
  peerUserId := none
  title := "Stars Top-Up"
  description := some s!"Purchased {stars} Telegram Stars"
  gift := false
  msgId := none
  botPayload := none

def giftPosting (description : String) (peerUserId : UserId) : Posting where
  peerType := .peer
  peerUserId := some peerUserId
  title := "Stars Gift"
  description := some description
  gift := true
  msgId := none
  botPayload := none

def invoicePosting (message : MessageRef) (media : InvoiceMedia) (peerUserId : UserId) :
    Posting where
  peerType := .peer
  peerUserId := some peerUserId
  title := media.title
  description := some media.description
  gift := false
  msgId := some message.id
  botPayload := if media.payload = [] then none else some media.payload

/-- The money step that follows the deletion of the form. -/
def pay (db : Db) : Charge → Except Failure (Phase × Db)
  | .store invoice paidWithStars =>
    match invoice.target with
    | .topup =>
      if paidWithStars then .error invoiceInvalid
      else (db.creditStars call.first call.userId invoice.stars true
        (topupPosting invoice.stars)).map fun db => (.done, db)
    | .gift giftUser =>
      if paidWithStars then
        (db.debitStars call.first call.userId invoice.stars
          (giftPosting s!"Gifted {invoice.stars} Telegram Stars" giftUser)).map fun db =>
            (.crediting giftUser invoice.stars true, db)
      else .ok (.crediting giftUser invoice.stars false, db.getOrCreateFor call.userId)
  | .bot message media =>
    match call.payerPeer with
    | .error failure => .error failure
    | .ok _ =>
      (db.transferStars call.first call.userId message.authorId media.totalAmount
        (some (botNetStars media.totalAmount))
        (invoicePosting message media message.authorId)
        (invoicePosting message media call.userId)).map fun db => (.sending message media, db)

/-- `complete_payment_form` from one suspension to the next. -/
def advance (db : Db) : Phase → Phase × Db
  | .start =>
    match call.invoice with
    | .message invoice =>
      match db.getForm call.formId call.userId with
      | none => (.checkingPaid invoice.msgId, db)
      | some form => (.loading form invoice, db)
    | invoice =>
      match parseStarsInvoice invoice with
      | .error failure => (.failed failure, db)
      | .ok parsed =>
        match db.getForm call.formId call.userId with
        | none => (.failed formExpired, db)
        | some form =>
          if form.isExpired call.now then (.expiring, db)
          else if form.storeMismatch parsed then (.failed invoiceInvalid, db)
          else (.deleting (.store parsed (form.currency = STARS_CURRENCY)), db)
  | .checkingPaid msgId =>
    if db.invoiceAlreadyPaid call.userId msgId then
      (.failed (.rpc 400 "FORM_SUBMIT_DUPLICATE"), db)
    else (.failed formExpired, db)
  | .loading form invoice =>
    match db.loadBotInvoiceMessage invoice with
    | .error failure => (.failed failure, db)
    | .ok (message, media) =>
      if form.isExpired call.now then (.expiring, db)
      else if form.botMismatch message media then (.failed invoiceInvalid, db)
      else (.precheckout message media, db)
  | .precheckout message media =>
    if message.authorSystem then (.deleting (.bot message media), db)
    else match call.precheckout with
      | .error failure => (.failed failure, db)
      | .ok _ => (.deleting (.bot message media), db)
  | .expiring => (.failed formExpired, db.deleteForm call.formId)
  | .deleting charge => (.paying charge, db.deleteForm call.formId)
  | .paying charge =>
    match call.pay db charge with
    | .error failure => (.failed failure, db)
    | .ok next => next
  | .crediting giftUser stars _ =>
    match db.creditStars call.second giftUser stars true
        (giftPosting s!"Received {stars} Telegram Stars" call.userId) with
    | .error failure => (.failed failure, db)
    | .ok db => (.done, db)
  | .sending message media =>
    match call.receipt with
    | .error failure => (.failed failure, db)
    | .ok receiptMsgId => (.done, db.updateInvoiceReceipt message media receiptMsgId)
  | .done => (.done, db)
  | .failed failure => (.failed failure, db)

def run : Nat → Phase × Db → Phase × Db
  | 0, at_ => at_
  | n + 1, at_ => run n (call.advance at_.2 at_.1)

/-- The whole call with nothing else going on. -/
def completePaymentForm (db : Db) : Phase × Db := call.run 6 (.start, db)

inductive Paid (db : Db) : Charge → Phase → Db → Prop
  | topup (invoice : StarsInvoice) (after : Db) (target : invoice.target = .topup)
      (credited : db.creditStars call.first call.userId invoice.stars true
        (topupPosting invoice.stars) = .ok after) :
      Paid db (.store invoice false) .done after
  | giftWithStars (invoice : StarsInvoice) (giftUser : UserId) (after : Db)
      (target : invoice.target = .gift giftUser)
      (debited : db.debitStars call.first call.userId invoice.stars
        (giftPosting s!"Gifted {invoice.stars} Telegram Stars" giftUser) = .ok after) :
      Paid db (.store invoice true) (.crediting giftUser invoice.stars true) after
  | gift (invoice : StarsInvoice) (giftUser : UserId) (target : invoice.target = .gift giftUser) :
      Paid db (.store invoice false) (.crediting giftUser invoice.stars false)
        (db.getOrCreateFor call.userId)
  | bot (message : MessageRef) (media : InvoiceMedia) (after : Db)
      (transferred : db.transferStars call.first call.userId message.authorId media.totalAmount
        (some (botNetStars media.totalAmount)) (invoicePosting message media message.authorId)
        (invoicePosting message media call.userId) = .ok after) :
      Paid db (.bot message media) (.sending message media) after

variable {call} {db : Db} {charge : Charge}

private theorem map_ok {result : Except Failure Db} {next phase : Phase} {after : Db}
    (ok : (result.map fun db => (next, db)) = .ok (phase, after)) :
    result = .ok after ∧ phase = next := by
  cases result with
  | error failure => cases ok
  | ok db =>
    cases ok
    exact ⟨rfl, rfl⟩

theorem paid_of_pay {phase : Phase} {after : Db} (ok : call.pay db charge = .ok (phase, after)) :
    call.Paid db charge phase after := by
  cases charge with
  | store invoice paidWithStars =>
    rw [pay] at ok
    cases target : invoice.target <;> rw [target] at ok <;> cases paidWithStars
    case topup.true => cases ok
    case topup.false =>
      obtain ⟨credited, rfl⟩ := map_ok ok
      exact .topup invoice after target credited
    case gift.true giftUser =>
      obtain ⟨debited, rfl⟩ := map_ok ok
      exact .giftWithStars invoice giftUser after target debited
    case gift.false giftUser =>
      cases ok
      exact .gift invoice giftUser target
  | bot message media =>
    rw [pay] at ok
    split at ok
    · cases ok
    · obtain ⟨transferred, rfl⟩ := map_ok ok
      exact .bot message media after transferred

theorem advance_paying (charge : Charge) :
    (∃ failure, call.pay db charge = .error failure ∧
      call.advance db (.paying charge) = (.failed failure, db)) ∨
    ∃ phase after, call.Paid db charge phase after ∧
      call.advance db (.paying charge) = (phase, after) := by
  rw [advance]
  cases paid : call.pay db charge with
  | error failure => exact .inl ⟨failure, rfl, rfl⟩
  | ok next => exact .inr ⟨next.1, next.2, paid_of_pay paid, rfl⟩

end Call

end Piltover.Stars
