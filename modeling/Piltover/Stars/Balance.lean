/- source: piltover/app/utils/stars_manager.py, piltover/db/models/user_stars_balance.py,
     piltover/db/models/stars_transaction.py, piltover/db/models/stars_payment_form.py
   digest: The rows of the stars tables and the transactions that move stars. -/

import Mathlib.Algebra.Order.Group.Nat
import Mathlib.Algebra.Order.Ring.Int
import Mathlib.Logic.Function.Basic
import Piltover.Failure

set_option autoImplicit false

namespace Piltover.Stars

abbrev UserId := Nat

abbrev FormId := Nat

abbrev Bytes := List UInt8

/-- `StarsTransactionPeerType`. -/
inductive PeerType
  | fragment | appStore | playMarket | premiumBot | peer | ads | api
  deriving DecidableEq, Repr

/-- `StarsPaymentPurpose`. -/
inductive Purpose
  | topup | gift | botInvoice
  deriving DecidableEq, Repr

structure UserStarsBalance where
  amount : Int
  nanos : Int
  deriving DecidableEq, Repr

/-- The keyword arguments that go unread into the row of a transaction. -/
structure Posting where
  peerType : PeerType
  peerUserId : Option UserId
  title : String
  description : Option String
  gift : Bool
  msgId : Option Nat
  botPayload : Option Bytes
  deriving DecidableEq, Repr

structure StarsTransaction where
  transactionId : String
  userId : UserId
  starsAmount : Int
  inbound : Bool
  date : Int
  posting : Posting
  deriving DecidableEq, Repr

structure StarsPaymentForm where
  id : FormId
  userId : UserId
  purpose : Purpose
  stars : Int
  currency : String
  amount : Int
  giftUserId : Option UserId
  botUserId : Option UserId
  messageId : Option Nat
  payload : Option Bytes
  expiresAt : Int
  deriving DecidableEq, Repr

/-- A `MessageMediaInvoice` with the payload that is stored behind it. -/
structure InvoiceMedia where
  title : String
  description : String
  currency : String
  totalAmount : Int
  receiptMsgId : Option Nat
  payload : Bytes
  deriving DecidableEq, Repr

/-- A regular message of the dialog `peerId`. Its media is what `_unpack_invoice_static` makes of an
invoice, and `none` without one; messages with one `mediaId` share the row of their media. -/
structure MessageRef where
  id : Nat
  peerId : Nat
  authorId : UserId
  authorBot : Bool
  authorSystem : Bool
  mediaId : Nat
  media : Option (Except Failure InvoiceMedia)

structure Db where
  balances : UserId → Option UserStarsBalance
  transactions : List StarsTransaction
  forms : List StarsPaymentForm
  messages : List MessageRef
  users : List UserId
  starsBotUserId : Option UserId

/-- What a database transaction takes from outside: identifiers, the time, and whether the database
lets it commit, which it does not when a text is too long for its column. -/
structure Attempt where
  transactionId : String
  pairedId : String
  now : Int
  commits : Bool
  deriving DecidableEq, Repr

def starsAmountInvalid : Failure := .rpc 400 "STARS_AMOUNT_INVALID"

def balanceTooLow : Failure := .rpc 400 "BALANCE_TOO_LOW"

def STARS_CURRENCY : String := "XTR"

def STARS_USD_SELL_RATE_X1000 : Int := 1410

def STARS_USD_WITHDRAW_RATE_X1000 : Int := 1300

def botNetStars (grossStars : Int) : Int :=
  if grossStars ≤ 0 then 0
  else grossStars * STARS_USD_WITHDRAW_RATE_X1000 / STARS_USD_SELL_RATE_X1000

/-- `description or default`. -/
def describe (description : Option String) (default : String) : String :=
  match description with
  | none => default
  | some text => if text = "" then default else text

namespace Db

variable (db : Db)

/-- `balance.save`, or `UserStarsBalance.create`. -/
def saveBalance (user : UserId) (row : UserStarsBalance) : Db :=
  { db with balances := Function.update db.balances user (some row) }

/-- The row of a user, created with nothing in it if there is none. -/
def loadBalance (user : UserId) : UserStarsBalance := (db.balances user).getD ⟨0, 0⟩

/-- `StarsTransaction.create`. -/
def createTransaction (t : StarsTransaction) : Db :=
  { db with transactions := db.transactions ++ [t] }

/-- The end of an `in_transaction()` block: the new state, or an exception and no change. -/
def commit (attempt : Attempt) : Except Failure Db :=
  if attempt.commits then .ok db else .error .other

def getOrCreateFor (user : UserId) : Db := db.saveBalance user (db.loadBalance user)

def creditStars (attempt : Attempt) (wallet : UserId) (stars : Int) (inbound : Bool)
    (posting : Posting) : Except Failure Db :=
  let balance := db.loadBalance wallet
  ((db.saveBalance wallet { balance with amount := balance.amount + stars }).createTransaction
    ⟨attempt.transactionId, wallet, stars, inbound, attempt.now, posting⟩).commit attempt

/-- The checks of `_transfer_stars`. -/
def transferRefusal (payer : UserId) (stars : Int) (recipientStars : Option Int) :
    Option Failure :=
  let credited := recipientStars.getD stars
  if stars ≤ 0 then some starsAmountInvalid
  else if credited ≤ 0 ∨ stars < credited then some starsAmountInvalid
  else match db.balances payer with
    | none => some balanceTooLow
    | some balance => if balance.amount < stars then some balanceTooLow else none

/-- `_transfer_stars`: both rows are loaded before either is saved. -/
def transferStars (attempt : Attempt) (payer recipient : UserId) (stars : Int)
    (recipientStars : Option Int) (outbound inbound : Posting) : Except Failure Db :=
  match db.transferRefusal payer stars recipientStars with
  | some failure => .error failure
  | none =>
    let credited := recipientStars.getD stars
    let payerBalance := db.loadBalance payer
    let recipientBalance := db.loadBalance recipient
    let db := db.saveBalance payer { payerBalance with amount := payerBalance.amount - stars }
    let db := db.saveBalance recipient
      { recipientBalance with amount := recipientBalance.amount + credited }
    let db := db.createTransaction
      ⟨attempt.transactionId, payer, stars, false, attempt.now, outbound⟩
    (db.createTransaction
      ⟨attempt.pairedId, recipient, credited, true, attempt.now, inbound⟩).commit attempt

/-- The checks of `_debit_stars`. -/
def debitRefusal (wallet : UserId) (stars : Int) : Option Failure :=
  if stars ≤ 0 then some starsAmountInvalid
  else match db.balances wallet with
    | none => some balanceTooLow
    | some balance => if balance.amount < stars then some balanceTooLow else none

def debitStars (attempt : Attempt) (wallet : UserId) (stars : Int) (posting : Posting) :
    Except Failure Db :=
  match db.debitRefusal wallet stars with
  | some failure => .error failure
  | none =>
    let balance := db.loadBalance wallet
    ((db.saveBalance wallet { balance with amount := balance.amount - stars }).createTransaction
      ⟨attempt.transactionId, wallet, stars, false, attempt.now, posting⟩).commit attempt

def grantStars (attempt : Attempt) (user : UserId) (stars : Int) (title : String)
    (description : Option String) : Except Failure Db :=
  match db.starsBotUserId with
  | none => .error .other
  | some starsBot => db.creditStars attempt user stars true
      ⟨.peer, some starsBot, title,
        some (describe description s!"Received {stars} Telegram Stars"), false, none, none⟩

def setStarsBalance (attempt : Attempt) (user : UserId) (amount : Int) (title : String)
    (description : Option String) : Except Failure Db :=
  if amount < 0 then .error starsAmountInvalid
  else match db.starsBotUserId with
    | none => .error .other
    | some starsBot =>
      let balance := db.loadBalance user
      let posting : Posting := ⟨.peer, some starsBot, title,
        some (describe description s!"Balance set to {amount} stars"), false, none, none⟩
      if balance.amount = amount then (db.saveBalance user balance).commit attempt
      else if balance.amount < amount then
        ((db.saveBalance user { balance with amount := amount }).createTransaction
          ⟨attempt.transactionId, user, amount - balance.amount, true, attempt.now,
            posting⟩).commit attempt
      else
        ((db.saveBalance user { balance with amount := amount }).createTransaction
          ⟨attempt.transactionId, user, balance.amount - amount, false, attempt.now,
            posting⟩).commit attempt

def spendStars (attempt : Attempt) (user : UserId) (stars : Int) (posting : Posting) :
    Except Failure Db :=
  db.debitStars attempt user stars posting

end Db

end Piltover.Stars
