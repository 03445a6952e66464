/- source: piltover/db/models/privacy_rule.py, piltover/db/models/privacy_rule_exception.py,
     piltover/db/models/contact.py, piltover/db/enums.py, piltover/app/handlers/contacts.py
   digest: Privacy rules with their exceptions and contacts, and how users change them. -/

import Piltover.Foundation.Table

set_option autoImplicit false

namespace Piltover.Privacy

open Piltover.Foundation

inductive PrivacyRuleKeyType
  | statusTimestamp | chatInvite | phoneCall | phoneP2p | forwards | profilePhoto | phoneNumber
  | addedByPhone | voiceMessage | about | birthday | noPaidMessages | giftsAutosave
  deriving DecidableEq, Repr

namespace PrivacyRuleKeyType

variable (key : PrivacyRuleKeyType)

def defaultAllowAll : Bool := key != .phoneNumber

def defaultAllowContacts : Bool := key == .phoneNumber

/-- The keys of `_PRIVACY_ENUM_KEY_TO_TL`. -/
def toTl : List PrivacyRuleKeyType :=
  [.statusTimestamp, .chatInvite, .phoneCall, .phoneP2p, .forwards, .profilePhoto, .phoneNumber,
    .addedByPhone, .voiceMessage, .about, .birthday]

end PrivacyRuleKeyType

structure PrivacyRule where
  userId : Nat
  key : PrivacyRuleKeyType
  allowAll : Bool
  allowContacts : Bool
  version : Nat
  deriving DecidableEq, Repr

namespace PrivacyRule

variable (r : PrivacyRule)

def slot : Nat × PrivacyRuleKeyType := (r.userId, r.key)

/-- The fields that `update_or_create` writes. -/
def write (allowAll allowContacts : Bool) : PrivacyRule := { r with allowAll, allowContacts }

/-- `F("version") + 1`. -/
def bump : PrivacyRule := { r with version := r.version + 1 }

theorem slot_write (allowAll allowContacts : Bool) : (r.write allowAll allowContacts).slot = r.slot :=
  rfl

theorem slot_bump : r.bump.slot = r.slot := rfl

end PrivacyRule

/-- A row of `PrivacyRuleException`; the rule is named by its user and key. -/
structure PrivacyRuleException where
  rule : Nat × PrivacyRuleKeyType
  userId : Nat
  allow : Bool
  deriving DecidableEq, Repr

namespace PrivacyRuleException

variable (e : PrivacyRuleException)

def pair : (Nat × PrivacyRuleKeyType) × Nat := (e.rule, e.userId)

def write (allow : Bool) : PrivacyRuleException := { e with allow }

theorem pair_write (allow : Bool) : (e.write allow).pair = e.pair := rfl

end PrivacyRuleException

structure Contact where
  ownerId : Nat
  targetId : Option Nat
  deriving DecidableEq, Repr

structure Db where
  users : List Nat
  rules : Table PrivacyRule.slot
  exceptions : Table PrivacyRuleException.pair
  contacts : List Contact

/-- A user named by a client, and whether the access hash is right. -/
inductive InputUser
  | self
  | user (userId : Nat) (checked : Bool)
  deriving DecidableEq, Repr

/-- Other rules are ignored. -/
inductive InputPrivacyRule
  | allowAll
  | allowContacts
  | allowUsers (users : List InputUser)
  | disallowUsers (users : List InputUser)
  | other
  deriving DecidableEq, Repr

def inputusersToUids (userId : Nat) (users : List InputUser) : List Nat :=
  users.filterMap fun
    | .self => none
    | .user id checked => if id != userId && checked then some id else none

/-- What the rules of a request say together. -/
structure Wish where
  allowAll : Bool
  allowContacts : Bool
  allowUsers : List Nat
  disallowUsers : List Nat
  deriving DecidableEq, Repr

def Wish.add (userId : Nat) (wish : Wish) : InputPrivacyRule → Wish
  | .allowAll => { wish with allowAll := true }
  | .allowContacts => { wish with allowContacts := true }
  | .allowUsers users => { wish with allowUsers := wish.allowUsers ++ inputusersToUids userId users }
  | .disallowUsers users =>
    { wish with disallowUsers := wish.disallowUsers ++ inputusersToUids userId users }
  | .other => wish

def Wish.ofRules (userId : Nat) (rules : List InputPrivacyRule) : Wish :=
  rules.foldl (Wish.add userId) ⟨false, false, [], []⟩

namespace Db

variable (db : Db)

/-- The owner has the target as a contact. -/
def isContact (ownerId targetId : Nat) : Bool :=
  db.contacts.any fun c => c.ownerId == ownerId && c.targetId == some targetId

/-- `create_defaults_for_user`: keys that have a rule are left alone. -/
def createDefaultsForUser (userId : Nat) : Db :=
  { db with rules := db.rules.insertMany (PrivacyRuleKeyType.toTl.map fun key =>
      ⟨userId, key, key.defaultAllowAll, key.defaultAllowContacts, 0⟩) }

def putExceptions (rule : Nat × PrivacyRuleKeyType) (wish : Wish) : Table PrivacyRuleException.pair :=
  let allUsers := wish.allowUsers ++ wish.disallowUsers
  if allUsers.isEmpty then db.exceptions.remove fun e => e.rule == rule
  else (db.users.filter allUsers.contains).foldl
    (fun table userId => table.updateOrCreate ⟨rule, userId, wish.allowUsers.contains userId⟩
      (·.write (wish.allowUsers.contains userId)) fun e => e.pair_write _)
    (db.exceptions.remove fun e => e.rule == rule && !allUsers.contains e.userId)

/-- `update_from_tl`, a transaction. -/
def updateFromTl (userId : Nat) (key : PrivacyRuleKeyType) (rules : List InputPrivacyRule) : Db :=
  let wish := Wish.ofRules userId rules
  let updated := db.rules.updateOrCreate ⟨userId, key, wish.allowAll, wish.allowContacts, 0⟩
    (·.write wish.allowAll wish.allowContacts) fun r => r.slot_write _ _
  { db with
    rules := updated.modify (fun r => r.slot == (userId, key)) PrivacyRule.bump PrivacyRule.slot_bump
    exceptions := db.putExceptions (userId, key) wish }

/-- `add_contact`. The exception that was to follow is not written: the handler passes on as the
rule the pair that `get_or_create` returns. -/
def addContact (ownerId targetId : Nat) (addPhonePrivacyException : Bool) : Db :=
  let contacts :=
    if db.isContact ownerId targetId then db.contacts else db.contacts ++ [⟨ownerId, some targetId⟩]
  { db with
    contacts
    rules := if addPhonePrivacyException then db.rules.insert ⟨ownerId, .phoneNumber, false, false, 0⟩
      else db.rules }

def deleteContacts (ownerId : Nat) (targetIds : List Nat) : Db :=
  { db with contacts := db.contacts.filter fun c =>
      !(c.ownerId == ownerId && c.targetId.any targetIds.contains) }

end Db

end Piltover.Privacy
