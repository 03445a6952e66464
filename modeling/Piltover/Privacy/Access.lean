/- source: piltover/db/models/privacy_rule.py, piltover/cache.py
   digest: What one check of a privacy rule and the check of many read, cache and answer. -/

import Mathlib.Data.List.ProdSigma
import Piltover.Failure
import Piltover.Privacy.Rules

set_option autoImplicit false

namespace Piltover.Privacy

open Piltover.Foundation

/-- Who looks, at whom, and for what. -/
structure Subject where
  thisUser : Nat
  ruleUser : Nat
  key : PrivacyRuleKeyType
  deriving DecidableEq, Repr

/-- `cache_key`: the version comes last. -/
abbrev CacheKey := Subject × Nat

structure State where
  db : Db
  cache : CacheKey → Option Bool

def PrivacyRule.cacheKey (r : PrivacyRule) (thisUser : Nat) : CacheKey :=
  (⟨thisUser, r.userId, r.key⟩, r.version)

namespace State

variable (s : State)

def store (key : CacheKey) (value : Bool) : State :=
  { s with cache := fun other => if other = key then some value else s.cache other }

def hasAccessTo (currentId targetId : Nat) (key : PrivacyRuleKeyType) : Bool × State :=
  if currentId = targetId then (true, s)
  else match s.db.rules.get (targetId, key) with
    | none => (if key.defaultAllowAll then true else s.db.isContact targetId currentId, s)
    | some simple =>
      match s.cache (simple.cacheKey currentId) with
      | some cached => (cached, s)
      | none =>
        let result := match s.db.rules.get simple.slot with
          | none => false
          | some rule =>
            match s.db.exceptions.get (rule.slot, currentId) with
            | some e => e.allow
            | none => rule.allowAll ||
                (rule.allowContacts && s.db.isContact targetId currentId)
        (result, s.store (simple.cacheKey currentId) result)

end State

/-! ### Many checks at once -/

/-- A user that is asked about: an identifier, or a `User` that may be a bot. -/
structure Target where
  id : Nat
  bot : Bool
  deriving DecidableEq, Repr

/-- `results`: what has been found for users and keys. -/
abbrev Results := Nat → PrivacyRuleKeyType → Option Bool

/-- Results that are written one after the other. -/
def Results.setAll (results : Results) (found : List (Nat × PrivacyRuleKeyType × Bool)) : Results :=
  found.foldl (fun results x userId key =>
    if userId = x.1 ∧ key = x.2.1 then some x.2.2 else results userId key) results

namespace State

variable (s : State) (users : List Target) (thisUserId : Nat) (keys : List PrivacyRuleKeyType)

def free (userId : Nat) : Bool :=
  userId == thisUserId || users.any fun u => u.id == userId && u.bot

/-- `user_ids` without those for whom everything is allowed. -/
def userIds : List Nat := (users.map (·.id)).filter fun id => !free users thisUserId id

/-- `results` before rules are looked at. -/
def freeResults : Results := fun userId key =>
  if users.any (·.id == userId) && free users thisUserId userId && keys.contains key then some true
  else none

def rulesSimple : List PrivacyRule :=
  s.db.rules.rows.filter fun r => keys.contains r.key && (userIds users thisUserId).contains r.userId

def cachedAnswers (rules : List PrivacyRule) : List (Nat × PrivacyRuleKeyType × Bool) :=
  rules.filterMap fun r => (s.cache (r.cacheKey thisUserId)).map fun allowed =>
    (r.userId, r.key, allowed)

def notCached (rules : List PrivacyRule) : List PrivacyRule :=
  rules.filter fun r => (s.cache (r.cacheKey thisUserId)).isNone

def loadContacts : List Nat :=
  (userIds users thisUserId).filter fun userId => s.db.isContact userId thisUserId

/-- `contacts`, loaded where none were given and a rule is going to be fetched. -/
def bulkContacts (contacts : Option (List Nat)) (notCached : List PrivacyRule) :
    Option (List Nat) :=
  if !notCached.isEmpty && contacts.isNone then some (s.loadContacts users thisUserId) else contacts

/-- The answer of a rule that has been fetched. -/
def answer (contacts : List Nat) (rule : PrivacyRule) : Bool :=
  match s.db.exceptions.get (rule.slot, thisUserId) with
  | some e => e.allow
  | none => if rule.allowAll || rule.allowContacts && contacts.contains rule.userId then true
      else false

/-- `leftover`, once the rules that were found are discarded. -/
def leftover (rules : List PrivacyRule) : List (Nat × PrivacyRuleKeyType) :=
  (userIds users thisUserId ×ˢ keys).filter fun x =>
    !rules.any fun r => r.userId == x.1 && r.key == x.2

/-- The answer where there is no rule; looking into contacts that were not loaded is an error. -/
def defaultAnswer (contacts : Option (List Nat)) (x : Nat × PrivacyRuleKeyType) :
    Except Failure (Nat × PrivacyRuleKeyType × Bool) :=
  if x.2.defaultAllowAll then .ok (x.1, x.2, true)
  else match contacts with
    | none => .error .other
    | some contacts => .ok (x.1, x.2, contacts.contains x.1)

def hasAccessToBulk (contacts : Option (List Nat)) : Except Failure (Results × State) :=
  if keys.isEmpty then .ok (fun _ _ => none, s)
  else
    let results := freeResults users thisUserId keys
    if (userIds users thisUserId).isEmpty then .ok (results, s)
    else do
      let rulesSimple := s.rulesSimple users thisUserId keys
      let notCached := s.notCached thisUserId rulesSimple
      let contacts := s.bulkContacts users thisUserId contacts notCached
      let fetched := notCached.map fun r =>
        (r.userId, r.key, s.answer thisUserId (contacts.getD []) r)
      let rest ← (leftover users thisUserId keys rulesSimple).mapM (defaultAnswer contacts)
      let toCache := notCached.map fun r =>
        (r.cacheKey thisUserId, s.answer thisUserId (contacts.getD []) r)
      .ok (((results.setAll (s.cachedAnswers thisUserId rulesSimple)).setAll fetched).setAll rest,
        toCache.foldl (fun s x => s.store x.1 x.2) s)

end State

/-! ### What they answer -/

/-- What a rule says about a user who looks. -/
inductive Verdict
  | always (allow : Bool)
  | contactsOnly
  deriving DecidableEq, Repr

def Verdict.decide (isContact : Bool) : Verdict → Bool
  | .always allow => allow
  | .contactsOnly => isContact

namespace Db

variable (db : Db)

def verdict (rule : PrivacyRule) (thisUser : Nat) : Verdict :=
  match db.exceptions.get (rule.slot, thisUser) with
  | some e => .always e.allow
  | none => if rule.allowAll then .always true
      else if rule.allowContacts then .contactsOnly else .always false

def allows (thisUser targetId : Nat) (key : PrivacyRuleKeyType) : Bool :=
  if thisUser = targetId then true
  else match db.rules.get (targetId, key) with
    | none => key.defaultAllowAll || (key.defaultAllowContacts && db.isContact targetId thisUser)
    | some rule =>
      match db.exceptions.get (rule.slot, thisUser) with
      | some e => e.allow
      | none => rule.allowAll || (rule.allowContacts && db.isContact targetId thisUser)

end Db

section Answers

variable {s : State} {users : List Target} {thisUserId targetId : Nat}
  {keys : List PrivacyRuleKeyType} {key : PrivacyRuleKeyType}

theorem defaultAllowContacts_eq (key : PrivacyRuleKeyType) :
    key.defaultAllowContacts = !key.defaultAllowAll := by
  cases key <;> rfl

theorem answer_eq_decide {contacts : List Nat} {rule : PrivacyRule} :
    s.answer thisUserId contacts rule =
      (s.db.verdict rule thisUserId).decide (contacts.contains rule.userId) := by
  unfold State.answer Db.verdict
  cases s.db.exceptions.get (rule.slot, thisUserId) with
  | some e => rfl
  | none => cases rule.allowAll <;> cases rule.allowContacts <;> simp [Verdict.decide]

theorem allows_of_rule {rule : PrivacyRule} (other : thisUserId ≠ targetId)
    (found : s.db.rules.get (targetId, key) = some rule) :
    s.db.allows thisUserId targetId key =
      (s.db.verdict rule thisUserId).decide (s.db.isContact targetId thisUserId) := by
  simp only [Db.allows, if_neg other, found, Db.verdict]
  cases s.db.exceptions.get (rule.slot, thisUserId) with
  | some e => rfl
  | none => cases rule.allowAll <;> cases rule.allowContacts <;> simp [Verdict.decide]

theorem allows_of_none (other : thisUserId ≠ targetId)
    (absent : s.db.rules.get (targetId, key) = none) :
    s.db.allows thisUserId targetId key =
      (key.defaultAllowAll || s.db.isContact targetId thisUserId) := by
  simp only [Db.allows, if_neg other, absent, defaultAllowContacts_eq]
  cases key.defaultAllowAll <;> simp

theorem hasAccessTo_eq (s : State) (currentId targetId : Nat) (key : PrivacyRuleKeyType) :
    s.hasAccessTo currentId targetId key =
      if currentId = targetId then (true, s)
      else match s.db.rules.get (targetId, key) with
        | none => (s.db.allows currentId targetId key, s)
        | some rule =>
          match s.cache (rule.cacheKey currentId) with
          | some cached => (cached, s)
          | none => (s.db.allows currentId targetId key,
              s.store (rule.cacheKey currentId) (s.db.allows currentId targetId key)) := by
  unfold State.hasAccessTo
  split
  · rfl
  · rename_i other
    cases found : s.db.rules.get (targetId, key) with
    | none =>
      rw [allows_of_none other found]
      cases key.defaultAllowAll <;> rfl
    | some rule =>
      have named : rule.slot = (targetId, key) := (Table.get_eq_some_iff.mp found).2
      simp only [Db.allows, if_neg other, named, found]

/-- Where the values belong to the users and keys, the order in which they are written does not
matter. -/
theorem setAll_eq {results : Results} {found : List (Nat × PrivacyRuleKeyType × Bool)}
    (value : Nat → PrivacyRuleKeyType → Bool) (belong : ∀ x ∈ found, x.2.2 = value x.1 x.2.1)
    (userId : Nat) (key : PrivacyRuleKeyType) :
    results.setAll found userId key =
      if (userId, key) ∈ found.map (fun x => (x.1, x.2.1)) then some (value userId key)
      else results userId key := by
  induction found generalizing results with
  | nil => rfl
  | cons x found ih =>
    rw [Results.setAll, List.foldl_cons, ← Results.setAll,
      ih fun y later => belong y (List.mem_cons_of_mem x later), List.map_cons]
    by_cases later : (userId, key) ∈ found.map fun x => (x.1, x.2.1)
    · rw [if_pos later, if_pos (List.mem_cons_of_mem _ later)]
    · rw [if_neg later]
      by_cases own : userId = x.1 ∧ key = x.2.1
      · rw [if_pos own, belong x List.mem_cons_self, own.1, own.2, if_pos List.mem_cons_self]
      · rw [if_neg own, if_neg]
        intro listed
        rcases List.mem_cons.mp listed with same | listed
        · exact own ⟨congrArg Prod.fst same, congrArg Prod.snd same⟩
        · exact later listed

end Answers

end Piltover.Privacy
