/- source: piltover/db/models/privacy_rule.py
   digest: When checks of privacy rules, one by one and many at once, give the plain answer. -/

import Piltover.Foundation.Runs
import Piltover.Foundation.VersionedCache
import Piltover.Privacy.Access

set_option autoImplicit false

namespace Piltover.Privacy

open Piltover.Foundation
open Piltover.Foundation.Runs
open Piltover.Foundation.VersionedCache

/-! ### What happens to rules, contacts and the cache -/

inductive Op
  | updateFromTl (userId : Nat) (key : PrivacyRuleKeyType) (rules : List InputPrivacyRule)
  | createDefaultsForUser (userId : Nat)
  | addContact (ownerId targetId : Nat) (addPhonePrivacyException : Bool)
  | deleteContacts (ownerId : Nat) (targetIds : List Nat)
  | hasAccessTo (currentId targetId : Nat) (key : PrivacyRuleKeyType)
  | hasAccessToBulk (users : List Target) (thisUserId : Nat) (keys : List PrivacyRuleKeyType)
      (contacts : Option (List Nat))
  deriving DecidableEq, Repr

def State.apply (s : State) : Op → State
  | .updateFromTl userId key rules => { s with db := s.db.updateFromTl userId key rules }
  | .createDefaultsForUser userId => { s with db := s.db.createDefaultsForUser userId }
  | .addContact ownerId targetId exception =>
    { s with db := s.db.addContact ownerId targetId exception }
  | .deleteContacts ownerId targetIds => { s with db := s.db.deleteContacts ownerId targetIds }
  | .hasAccessTo currentId targetId key => (s.hasAccessTo currentId targetId key).2
  | .hasAccessToBulk users thisUserId keys contacts =>
    match s.hasAccessToBulk users thisUserId keys contacts with
    | .ok (_, s') => s'
    | .error _ => s

def step (s : State) (op : Op) : Option State := some (s.apply op)

def Db.current (db : Db) (i : Subject) : Option (Nat × Verdict) :=
  (db.rules.get (i.ruleUser, i.key)).map fun rule => (rule.version, db.verdict rule i.thisUser)

/-- What is cached was the answer of a verdict, for contacts as they were then. -/
structure Sound (s : State) (verdicts : CacheKey → Option Verdict) : Prop where
  coherent : Coherent s.db.current verdicts
  bounded : Bounded s.db.current verdicts
  answers : ∀ key cached, s.cache key = some cached →
    ∃ verdict, verdicts key = some verdict ∧ ∃ isContact, verdict.decide isContact = cached

section Preservation

variable {s : State} {db db' : Db} {verdicts : CacheKey → Option Verdict}

theorem current_eq_some_iff {i : Subject} {n : Nat} {verdict : Verdict} :
    db.current i = some (n, verdict) ↔ ∃ rule, db.rules.get (i.ruleUser, i.key) = some rule ∧
      rule.version = n ∧ db.verdict rule i.thisUser = verdict := by
  simp only [Db.current, Option.map_eq_some_iff, Prod.mk.injEq]

theorem Sound.store {rule : PrivacyRule} (sound : Sound s verdicts) (thisUser : Nat)
    (isContact : Bool) (here : rule ∈ s.db.rules) : ∃ verdicts', Sound (s.store (rule.cacheKey thisUser)
      ((s.db.verdict rule thisUser).decide isContact)) verdicts' := by
  let written : CacheKey → Option Verdict := fun key =>
    if key = rule.cacheKey thisUser then some (s.db.verdict rule thisUser) else none
  have right : ∀ i n verdict, written (i, n) = some verdict → s.db.current i = some (n, verdict) := by
    intro i n verdict stored
    obtain ⟨same, rfl⟩ : (i, n) = rule.cacheKey thisUser ∧ s.db.verdict rule thisUser = verdict := by
      simpa [written] using stored
    cases same
    exact current_eq_some_iff.mpr ⟨rule, Table.mem_iff_get.mp here, rfl, rfl⟩
  refine ⟨fun key => (written key).or (verdicts key), sound.coherent.write right,
    sound.bounded.write right, fun key cached found => ?_⟩
  simp only [State.store] at found
  by_cases own : key = rule.cacheKey thisUser
  · rw [if_pos own] at found
    refine ⟨s.db.verdict rule thisUser, ?_, isContact, Option.some.inj found⟩
    simp [written, own]
  · rw [if_neg own] at found
    obtain ⟨verdict, stored, permits⟩ := sound.answers key cached found
    refine ⟨verdict, ?_, permits⟩
    simpa [written, own] using stored

theorem Sound.change (sound : Sound s verdicts) (rises : Rises s.db.current db'.current)
    (tells : Tells s.db.current db'.current) : Sound { s with db := db' } verdicts :=
  ⟨tells.coherent_of_rises rises sound.bounded sound.coherent, rises.bounded sound.bounded,
    sound.answers⟩

theorem keeps_current (db db' : Db) (stay : ∀ slot rule, db.rules.get slot = some rule →
    db'.rules.get slot = some rule) (exceptions : db'.exceptions = db.exceptions) :
    Rises db.current db'.current ∧ Tells db.current db'.current := by
  have same : ∀ i n verdict, db.current i = some (n, verdict) → db'.current i = some (n, verdict) := by
    intro i n verdict here
    obtain ⟨rule, found, version, decided⟩ := current_eq_some_iff.mp here
    refine current_eq_some_iff.mpr ⟨rule, stay _ rule found, version, ?_⟩
    rw [← decided, Db.verdict, Db.verdict, exceptions]
  refine ⟨fun i n verdict here => ⟨n, verdict, same i n verdict here, Nat.le_refl n⟩, ?_⟩
  intro i n v w here there
  have now := (same i n v here).symm.trans there
  exact congrArg Prod.snd (Option.some.inj now)

theorem get_putExceptions {rule other : Nat × PrivacyRuleKeyType} (wish : Wish) (userId : Nat)
    (apart : other ≠ rule) :
    (db.putExceptions rule wish).get (other, userId) = db.exceptions.get (other, userId) := by
  have removed : ∀ which : Nat → Bool,
      (db.exceptions.remove fun e => e.rule == rule && which e.userId).get (other, userId) =
        db.exceptions.get (other, userId) := by
    intro which
    rw [Table.get_remove]
    cases found : db.exceptions.get (other, userId) with
    | none => rfl
    | some e =>
      have named : e.rule = other := congrArg Prod.fst (Table.get_eq_some_iff.mp found).2
      have unlike : (e.rule == rule) = false := beq_eq_false_iff_ne.mpr (named ▸ apart)
      simp [unlike]
  unfold Db.putExceptions
  dsimp only
  split
  · have all := removed fun _ => true
    simpa using all
  · rw [← removed fun userId => !(wish.allowUsers ++ wish.disallowUsers).contains userId]
    generalize db.users.filter _ = listed
    generalize db.exceptions.remove _ = table
    induction listed generalizing table with
    | nil => rfl
    | cons first listed ih =>
      rw [List.foldl_cons, ih, Table.get_updateOrCreate, if_neg]
      intro same
      exact apart (congrArg Prod.fst same).symm

theorem updateFromTl_current (db : Db) (userId : Nat) (key : PrivacyRuleKeyType)
    (rules : List InputPrivacyRule) :
    Rises db.current (db.updateFromTl userId key rules).current ∧
      Tells db.current (db.updateFromTl userId key rules).current := by
  let wish := Wish.ofRules userId rules
  -- the rule that is named gets the next version, the others stay
  have after : ∀ slot rule, db.rules.get slot = some rule →
      (db.updateFromTl userId key rules).rules.get slot = some (if slot = (userId, key) then
        (rule.write wish.allowAll wish.allowContacts).bump else rule) := by
    intro slot rule found
    have named := (Table.get_eq_some_iff.mp found).2
    simp only [Db.updateFromTl]
    rw [Table.get_modify_key, Table.get_updateOrCreate, found]
    by_cases own : (userId, key) = slot
    · rw [if_pos own, if_pos own.symm]
      exact congrArg (Option.map PrivacyRule.bump) (if_pos own)
    · rw [if_neg own, if_neg fun same : slot = (userId, key) => own same.symm]
      exact if_neg own
  have verdicts : ∀ (rule : PrivacyRule) (thisUser : Nat), rule.slot ≠ (userId, key) →
      (db.updateFromTl userId key rules).verdict rule thisUser = db.verdict rule thisUser := by
    intro rule thisUser apart
    simp only [Db.verdict, Db.updateFromTl, get_putExceptions _ thisUser apart]
  constructor
  · intro i n verdict here
    obtain ⟨rule, found, rfl, -⟩ := current_eq_some_iff.mp here
    refine ⟨_, _, current_eq_some_iff.mpr ⟨_, after _ rule found, rfl, rfl⟩, ?_⟩
    split
    · exact Nat.le_succ _
    · exact Nat.le_refl _
  · intro i n v w here there
    obtain ⟨rule, found, version, decided⟩ := current_eq_some_iff.mp here
    obtain ⟨rule', found', version', decided'⟩ := current_eq_some_iff.mp there
    cases (after _ rule found).symm.trans found'
    by_cases own : (i.ruleUser, i.key) = (userId, key)
    · rw [if_pos own, ← version] at version'
      exact absurd version' (Nat.succ_ne_self _)
    · rw [if_neg own] at decided'
      rw [← decided, ← decided', verdicts rule]
      rw [(Table.get_eq_some_iff.mp found).2]
      exact own

theorem Sound.hasAccessTo (sound : Sound s verdicts) (currentId targetId : Nat)
    (key : PrivacyRuleKeyType) : ∃ verdicts', Sound (s.hasAccessTo currentId targetId key).2 verdicts' := by
  rw [hasAccessTo_eq]
  split
  · exact ⟨verdicts, sound⟩
  · rename_i other
    cases found : s.db.rules.get (targetId, key) with
    | none => exact ⟨verdicts, sound⟩
    | some rule =>
      dsimp only
      cases s.cache (rule.cacheKey currentId) with
      | some cached => exact ⟨verdicts, sound⟩
      | none =>
        rw [allows_of_rule other found]
        exact sound.store currentId _ (Table.get_eq_some_iff.mp found).1

theorem Sound.storeAll {thisUser : Nat} {contacts : List Nat} {rules : List PrivacyRule} {s' : State}
    (sound : Sound s' verdicts) (same : s'.db = s.db) (listed : ∀ rule ∈ rules, rule ∈ s.db.rules) :
    ∃ verdicts', Sound ((rules.map fun r => (r.cacheKey thisUser, s.answer thisUser contacts r)).foldl
      (fun s x => s.store x.1 x.2) s') verdicts' := by
  induction rules generalizing s' verdicts with
  | nil => exact ⟨verdicts, sound⟩
  | cons rule rules ih =>
    have here : rule ∈ s'.db.rules := same ▸ listed rule List.mem_cons_self
    obtain ⟨verdicts', sound'⟩ := sound.store thisUser (contacts.contains rule.userId) here
    rw [same] at sound'
    rw [List.map_cons, List.foldl_cons, answer_eq_decide]
    exact ih sound' same fun r later => listed r (List.mem_cons_of_mem rule later)

theorem Sound.apply (sound : Sound s verdicts) (op : Op) : ∃ verdicts', Sound (s.apply op) verdicts' := by
  cases op with
  | updateFromTl userId key rules =>
    obtain ⟨rises, tells⟩ := updateFromTl_current s.db userId key rules
    exact ⟨verdicts, sound.change rises tells⟩
  | createDefaultsForUser userId =>
    obtain ⟨rises, tells⟩ := keeps_current s.db (s.db.createDefaultsForUser userId)
      (fun slot rule found => by
        rw [Db.createDefaultsForUser, Table.get_insertMany, found, Option.some_or])
      (by rw [Db.createDefaultsForUser])
    exact ⟨verdicts, sound.change rises tells⟩
  | addContact ownerId targetId exception =>
    obtain ⟨rises, tells⟩ := keeps_current s.db (s.db.addContact ownerId targetId exception)
      (fun slot rule found => by
        simp only [Db.addContact]
        split
        · rw [Table.get_insert', found, Option.some_or]
        · exact found) rfl
    exact ⟨verdicts, sound.change rises tells⟩
  | deleteContacts ownerId targetIds =>
    obtain ⟨rises, tells⟩ := keeps_current s.db (s.db.deleteContacts ownerId targetIds)
      (fun _ _ found => found) rfl
    exact ⟨verdicts, sound.change rises tells⟩
  | hasAccessTo currentId targetId key => exact sound.hasAccessTo currentId targetId key
  | hasAccessToBulk users thisUserId keys contacts =>
    simp only [State.apply]
    split
    · rename_i results s' done
      unfold State.hasAccessToBulk at done
      split at done
      · cases done
        exact ⟨verdicts, sound⟩
      · dsimp only at done
        split at done
        · cases done
          exact ⟨verdicts, sound⟩
        · obtain ⟨rest, -, done⟩ := (bind_eq_ok _).mp done
          cases done
          refine sound.storeAll rfl fun rule listed => ?_
          exact Table.mem_def.mpr (List.mem_filter.mp (List.mem_filter.mp listed).1).1
    · exact ⟨verdicts, sound⟩

theorem sound_of_run {db : Db} {ops : List Op} (run : runFrom step ⟨db, fun _ => none⟩ ops = some s) :
    ∃ verdicts, Sound s verdicts := by
  have start : ∃ verdicts, Sound ⟨db, fun _ => none⟩ verdicts :=
    ⟨fun _ => none, coherent_empty, bounded_empty, fun _ _ found => (by cases found)⟩
  have keep : ∀ s op t, (∃ verdicts, Sound s verdicts) → step s op = some t →
      ∃ verdicts, Sound t verdicts := by
    rintro s op t ⟨verdicts, sound⟩ happens
    cases happens
    exact sound.apply op
  exact run_invariant_all keep start run

end Preservation

/-! ### When the answers agree -/

section Agreement

variable (s : State) (users : List Target) (thisUserId : Nat) (keys : List PrivacyRuleKeyType)
  (contacts : Option (List Nat))

/-- The bulk check returns, and each of its answers is the one of the single check and the plain
one. -/
def Agrees : Prop :=
  ∃ results s', s.hasAccessToBulk users thisUserId keys contacts = .ok (results, s') ∧
    ∀ u ∈ users, ∀ key ∈ keys,
      results u.id key = some (s.hasAccessTo thisUserId u.id key).1 ∧
        (s.hasAccessTo thisUserId u.id key).1 = s.db.allows thisUserId u.id key

/-- An answer in the cache that depends on contacts is right for the contacts as they are. -/
def ContactsUnchanged : Prop :=
  ∀ u ∈ users, ∀ key ∈ keys, thisUserId ≠ u.id → ∀ rule, s.db.rules.get (u.id, key) = some rule →
    s.db.verdict rule thisUserId = .contactsOnly → ∀ cached,
      s.cache (rule.cacheKey thisUserId) = some cached →
        cached = s.db.isContact u.id thisUserId

/-- Contacts are given, or loaded because some rule is not cached, or no user without a rule is
asked about for a key whose default looks at contacts. -/
def ContactsKnown : Prop :=
  contacts.isSome ∨
    (∃ u ∈ users, ∃ key ∈ keys, thisUserId ≠ u.id ∧ ∃ rule, s.db.rules.get (u.id, key) = some rule ∧
      s.cache (rule.cacheKey thisUserId) = none) ∨
    ∀ u ∈ users, ∀ key ∈ keys, thisUserId ≠ u.id → s.db.rules.get (u.id, key) = none →
      key.defaultAllowAll = true

end Agreement

section Bulk

open State (userIds leftover defaultAnswer freeResults)

variable {s : State} {users : List Target} {thisUserId : Nat} {keys : List PrivacyRuleKeyType}
  {contacts : Option (List Nat)}

theorem mem_userIds (nonBot : ∀ u ∈ users, u.bot = false) {userId : Nat} :
    userId ∈ userIds users thisUserId ↔ (∃ u ∈ users, u.id = userId) ∧ thisUserId ≠ userId := by
  have noBots : (users.any fun u => u.id == userId && u.bot) = false := by
    rw [List.any_eq_false]
    intro u here
    simp [nonBot u here]
  simp only [State.userIds, List.mem_filter, List.mem_map, State.free, noBots, Bool.or_false,
    Bool.not_eq_true', beq_eq_false_iff_ne]
  exact and_congr_right fun _ => ne_comm

/-- The rules of `rules_simple` are those of the users and keys. -/
theorem mem_rulesSimple {rule : PrivacyRule} :
    rule ∈ s.rulesSimple users thisUserId keys ↔
      s.db.rules.get (rule.userId, rule.key) = some rule ∧ rule.key ∈ keys ∧
        rule.userId ∈ userIds users thisUserId := by
  rw [State.rulesSimple, List.mem_filter, ← Table.mem_def, Table.mem_iff_get, Bool.and_eq_true,
    List.contains_iff_mem, List.contains_iff_mem]
  rfl

def bulkValue (s : State) (thisUserId : Nat) (contacts : List Nat) (userId : Nat)
    (key : PrivacyRuleKeyType) : Bool :=
  match s.db.rules.get (userId, key) with
  | none => key.defaultAllowAll || contacts.contains userId
  | some rule => (s.cache (rule.cacheKey thisUserId)).getD (s.answer thisUserId contacts rule)

theorem setAll_append (results : Results) (found more : List (Nat × PrivacyRuleKeyType × Bool)) :
    (results.setAll found).setAll more = results.setAll (found ++ more) := by
  simp only [Results.setAll, List.foldl_append]

theorem mem_leftover {x : Nat × PrivacyRuleKeyType} :
    x ∈ leftover users thisUserId keys (s.rulesSimple users thisUserId keys) ↔
      x.1 ∈ userIds users thisUserId ∧ x.2 ∈ keys ∧ s.db.rules.get x = none := by
  obtain ⟨userId, key⟩ := x
  rw [State.leftover, List.mem_filter, List.mem_product, and_assoc]
  refine and_congr_right fun listed => and_congr_right fun asked => ?_
  rw [Bool.not_eq_true', List.any_eq_false]
  constructor
  · intro none'
    by_contra found
    obtain ⟨rule, got⟩ := Option.ne_none_iff_exists'.mp found
    obtain ⟨-, named⟩ := Table.get_eq_some_iff.mp got
    cases named
    exact none' rule (mem_rulesSimple.mpr ⟨got, asked, listed⟩) (by simp)
  · intro absent rule here same
    obtain ⟨got, -⟩ := mem_rulesSimple.mp here
    obtain ⟨rfl, rfl⟩ : rule.userId = userId ∧ rule.key = key := by simpa using same
    rw [absent] at got
    cases got

theorem defaultAnswer_eq_ok {x : Nat × PrivacyRuleKeyType} {found : Nat × PrivacyRuleKeyType × Bool} :
    defaultAnswer contacts x = .ok found ↔ (contacts.isSome ∨ x.2.defaultAllowAll = true) ∧
      found = (x.1, x.2, x.2.defaultAllowAll || (contacts.getD []).contains x.1) := by
  unfold State.defaultAnswer
  cases x.2.defaultAllowAll <;> cases contacts <;> simp [eq_comm]

def contactsHad (s : State) (users : List Target) (thisUserId : Nat) (keys : List PrivacyRuleKeyType)
    (contacts : Option (List Nat)) : Option (List Nat) :=
  s.bulkContacts users thisUserId contacts
    (s.notCached thisUserId (s.rulesSimple users thisUserId keys))

theorem bulk_isOk_iff : (∃ results s', s.hasAccessToBulk users thisUserId keys contacts =
      .ok (results, s')) ↔
    (contactsHad s users thisUserId keys contacts).isSome ∨
      ∀ x ∈ leftover users thisUserId keys (s.rulesSimple users thisUserId keys),
        x.2.defaultAllowAll = true := by
  unfold State.hasAccessToBulk
  split
  · rename_i noKeys
    refine iff_of_true ⟨_, _, rfl⟩ (.inr fun x listed => ?_)
    rw [List.isEmpty_iff.mp noKeys] at listed
    exact absurd (mem_leftover.mp listed).2.1 List.not_mem_nil
  · dsimp only
    split
    · rename_i noUsers
      refine iff_of_true ⟨_, _, rfl⟩ (.inr fun x listed => ?_)
      have here := (mem_leftover.mp listed).1
      rw [List.isEmpty_iff.mp noUsers] at here
      exact absurd here List.not_mem_nil
    · rw [← contactsHad]
      constructor
      · rintro ⟨results, s', done⟩
        obtain ⟨rest, each, -⟩ := (bind_eq_ok _).mp done
        by_contra fails
        obtain ⟨none', some'⟩ := not_or.mp fails
        obtain ⟨x, fails⟩ := not_forall.mp some'
        obtain ⟨listed, asks⟩ := Classical.not_imp.mp fails
        obtain ⟨found, ok, -⟩ := exists_mem_of_mapM each listed
        exact not_or.mpr ⟨none', asks⟩ (defaultAnswer_eq_ok.mp ok).1
      · intro known
        have each := mapM_eq_ok_map (l := leftover users thisUserId keys
          (s.rulesSimple users thisUserId keys)) fun x listed => defaultAnswer_eq_ok.mpr
            ⟨known.imp_right fun all => all x listed, rfl⟩
        rw [each]
        exact ⟨_, _, rfl⟩

theorem written_belongs {known : Option (List Nat)} {rest : List (Nat × PrivacyRuleKeyType × Bool)}
    (each : (leftover users thisUserId keys (s.rulesSimple users thisUserId keys)).mapM
      (defaultAnswer known) = .ok rest) :
    ∀ x ∈ s.cachedAnswers thisUserId (s.rulesSimple users thisUserId keys) ++
        ((s.notCached thisUserId (s.rulesSimple users thisUserId keys)).map (fun r =>
          (r.userId, r.key, s.answer thisUserId (known.getD []) r)) ++ rest),
      x.2.2 = bulkValue s thisUserId (known.getD []) x.1 x.2.1 := by
  intro x listed
  rcases List.mem_append.mp listed with cached | later
  · obtain ⟨rule, here, found⟩ := List.mem_filterMap.mp cached
    obtain ⟨answer, stored, rfl⟩ := Option.map_eq_some_iff.mp found
    simp only [bulkValue, (mem_rulesSimple.mp here).1, stored, Option.getD_some]
  · rcases List.mem_append.mp later with fetched | left
    · obtain ⟨rule, here, rfl⟩ := List.mem_map.mp fetched
      obtain ⟨here, uncached⟩ := List.mem_filter.mp here
      simp only [bulkValue, (mem_rulesSimple.mp here).1, Option.isNone_iff_eq_none.mp uncached,
        Option.getD_none]
    · obtain ⟨y, there, ok⟩ := mem_of_mapM each left
      rw [(defaultAnswer_eq_ok.mp ok).2, bulkValue, (mem_leftover.mp there).2.2]

theorem written_all {known : Option (List Nat)} {rest : List (Nat × PrivacyRuleKeyType × Bool)}
    (each : (leftover users thisUserId keys (s.rulesSimple users thisUserId keys)).mapM
      (defaultAnswer known) = .ok rest) (userId : Nat) (key : PrivacyRuleKeyType) :
    (userId, key) ∈ (s.cachedAnswers thisUserId (s.rulesSimple users thisUserId keys) ++
        ((s.notCached thisUserId (s.rulesSimple users thisUserId keys)).map (fun r =>
          (r.userId, r.key, s.answer thisUserId (known.getD []) r)) ++ rest)).map
            (fun x => (x.1, x.2.1)) ↔
      userId ∈ userIds users thisUserId ∧ key ∈ keys := by
  rw [List.map_append, List.map_append, List.mem_append, List.mem_append]
  constructor
  · rintro (cached | fetched | left)
    · obtain ⟨x, cached, same⟩ := List.mem_map.mp cached
      obtain ⟨rule, here, found⟩ := List.mem_filterMap.mp cached
      obtain ⟨answer, -, rfl⟩ := Option.map_eq_some_iff.mp found
      cases same
      exact (mem_rulesSimple.mp here).2.symm
    · obtain ⟨x, fetched, same⟩ := List.mem_map.mp fetched
      obtain ⟨rule, here, rfl⟩ := List.mem_map.mp fetched
      cases same
      exact (mem_rulesSimple.mp (List.mem_filter.mp here).1).2.symm
    · obtain ⟨x, left, same⟩ := List.mem_map.mp left
      obtain ⟨y, there, ok⟩ := mem_of_mapM each left
      rw [(defaultAnswer_eq_ok.mp ok).2] at same
      cases same
      exact ⟨(mem_leftover.mp there).1, (mem_leftover.mp there).2.1⟩
  · rintro ⟨listed, asked⟩
    cases found : s.db.rules.get (userId, key) with
    | none =>
      refine .inr (.inr (List.mem_map.mpr ?_))
      obtain ⟨b, ok, there⟩ := exists_mem_of_mapM each (mem_leftover.mpr ⟨listed, asked, found⟩)
      exact ⟨b, there, by rw [(defaultAnswer_eq_ok.mp ok).2]⟩
    | some rule =>
      obtain ⟨-, named⟩ := Table.get_eq_some_iff.mp found
      cases named
      have here := mem_rulesSimple.mpr ⟨found, asked, listed⟩
      cases stored : s.cache (rule.cacheKey thisUserId) with
      | none =>
        refine .inr (.inl (List.mem_map.mpr ⟨_, List.mem_map_of_mem ?_, rfl⟩))
        exact List.mem_filter.mpr ⟨here, by rw [stored]; rfl⟩
      | some answer =>
        refine .inl (List.mem_map.mpr ⟨(rule.userId, rule.key, answer), ?_, rfl⟩)
        exact List.mem_filterMap.mpr ⟨rule, here, by rw [stored]; rfl⟩

theorem bulk_results (nonBot : ∀ u ∈ users, u.bot = false) {results : Results} {s' : State}
    (done : s.hasAccessToBulk users thisUserId keys contacts = .ok (results, s')) :
    ∀ u ∈ users, ∀ key ∈ keys, results u.id key = some (if thisUserId = u.id then true
      else bulkValue s thisUserId ((contactsHad s users thisUserId keys contacts).getD []) u.id key) := by
  intro u here key asked
  have free : thisUserId = u.id → freeResults users thisUserId keys u.id key = some true := by
    rintro rfl
    have listed : users.any (fun v => v.id == u.id) = true :=
      List.any_eq_true.mpr ⟨u, here, beq_self_eq_true _⟩
    simp [State.freeResults, State.free, listed, asked]
  unfold State.hasAccessToBulk at done
  split at done
  · rename_i noKeys
    rw [List.isEmpty_iff.mp noKeys] at asked
    cases asked
  · dsimp only at done
    split at done
    · rename_i noUsers
      cases done
      have own : thisUserId = u.id := by
        by_contra other
        have listed := (mem_userIds nonBot).mpr ⟨⟨u, here, rfl⟩, other⟩
        rw [List.isEmpty_iff.mp noUsers] at listed
        cases listed
      rw [if_pos own, free own]
    · rw [← contactsHad] at done
      generalize had : contactsHad s users thisUserId keys contacts = known at done
      obtain ⟨rest, each, done⟩ := (bind_eq_ok _).mp done
      cases done
      rw [setAll_append, setAll_append, setAll_eq _ (written_belongs each)]
      by_cases own : thisUserId = u.id
      · rw [if_pos own, if_neg, free own]
        exact fun listed => ((mem_userIds nonBot).mp ((written_all each _ _).mp listed).1).2 own
      · rw [if_neg own, if_pos]
        exact (written_all each _ _).mpr ⟨(mem_userIds nonBot).mpr ⟨⟨u, here, rfl⟩, own⟩, asked⟩

theorem contactsHad_exact (nonBot : ∀ u ∈ users, u.bot = false)
    (exact : ∀ c, contacts = some c → ∀ u ∈ users, u.id ∈ c ↔ s.db.isContact u.id thisUserId = true)
    {known : List Nat} (had : contactsHad s users thisUserId keys contacts = some known) {u : Target}
    (here : u ∈ users) (other : thisUserId ≠ u.id) :
    known.contains u.id = s.db.isContact u.id thisUserId := by
  have same : u.id ∈ known ↔ s.db.isContact u.id thisUserId = true := by
    unfold contactsHad State.bulkContacts at had
    split at had
    · cases had
      rw [State.loadContacts, List.mem_filter]
      exact and_iff_right ((mem_userIds nonBot).mpr ⟨⟨u, here, rfl⟩, other⟩)
    · exact exact known had u here
  rw [Bool.eq_iff_iff, List.contains_iff_mem]
  exact same

theorem isSome_contactsHad_iff (nonBot : ∀ u ∈ users, u.bot = false) :
    (contactsHad s users thisUserId keys contacts).isSome ↔ contacts.isSome ∨
      ∃ u ∈ users, ∃ key ∈ keys, thisUserId ≠ u.id ∧ ∃ rule,
        s.db.rules.get (u.id, key) = some rule ∧ s.cache (rule.cacheKey thisUserId) = none := by
  have uncached : (s.notCached thisUserId (s.rulesSimple users thisUserId keys)).isEmpty = false ↔
      ∃ u ∈ users, ∃ key ∈ keys, thisUserId ≠ u.id ∧ ∃ rule,
        s.db.rules.get (u.id, key) = some rule ∧ s.cache (rule.cacheKey thisUserId) = none := by
    rw [← Bool.not_eq_true, List.isEmpty_iff]
    constructor
    · intro some'
      obtain ⟨rule, here⟩ := List.exists_mem_of_ne_nil _ some'
      obtain ⟨listed, absent⟩ := List.mem_filter.mp here
      obtain ⟨found, asked, user⟩ := mem_rulesSimple.mp listed
      obtain ⟨⟨u, here, named⟩, other⟩ := (mem_userIds nonBot).mp user
      rw [← named] at found other
      exact ⟨u, here, rule.key, asked, other, rule, found, Option.isNone_iff_eq_none.mp absent⟩
    · rintro ⟨u, here, key, asked, other, rule, found, absent⟩ empty
      obtain ⟨-, named⟩ := Table.get_eq_some_iff.mp found
      obtain ⟨user, rfl⟩ : rule.userId = u.id ∧ rule.key = key := Prod.mk.inj named
      rw [← user] at found other
      have listed := mem_rulesSimple.mpr
        ⟨found, asked, (mem_userIds nonBot).mpr ⟨⟨u, here, user.symm⟩, other⟩⟩
      have fetched : rule ∈ s.notCached thisUserId (s.rulesSimple users thisUserId keys) :=
        List.mem_filter.mpr ⟨listed, Option.isNone_iff_eq_none.mpr absent⟩
      rw [empty] at fetched
      cases fetched
  rw [← uncached, contactsHad, State.bulkContacts]
  cases (s.notCached thisUserId (s.rulesSimple users thisUserId keys)).isEmpty <;>
    cases contacts <;> simp

theorem bulk_isOk_iff_contactsKnown (nonBot : ∀ u ∈ users, u.bot = false) :
    (∃ results s', s.hasAccessToBulk users thisUserId keys contacts = .ok (results, s')) ↔
      ContactsKnown s users thisUserId keys contacts := by
  rw [bulk_isOk_iff, isSome_contactsHad_iff nonBot, ContactsKnown, or_assoc]
  refine or_congr_right (or_congr_right ⟨fun all u here key asked other absent => ?_, fun all x left => ?_⟩)
  · exact all (u.id, key) (mem_leftover.mpr
      ⟨(mem_userIds nonBot).mpr ⟨⟨u, here, rfl⟩, other⟩, asked, absent⟩)
  · obtain ⟨user, asked, absent⟩ := mem_leftover.mp left
    obtain ⟨⟨u, here, named⟩, other⟩ := (mem_userIds nonBot).mp user
    exact all u here x.2 asked (named ▸ other) (by rw [named]; exact absent)

theorem cached_eq_allows {verdicts : CacheKey → Option Verdict} (sound : Sound s verdicts)
    {userId : Nat} {key : PrivacyRuleKeyType} {rule : PrivacyRule} {cached : Bool}
    (other : thisUserId ≠ userId) (found : s.db.rules.get (userId, key) = some rule)
    (stored : s.cache (rule.cacheKey thisUserId) = some cached)
    (unchanged : s.db.verdict rule thisUserId = .contactsOnly →
      cached = s.db.isContact userId thisUserId) :
    cached = s.db.allows thisUserId userId key := by
  obtain ⟨-, named⟩ := Table.get_eq_some_iff.mp found
  cases named
  have here : s.db.current ⟨thisUserId, rule.userId, rule.key⟩ =
      some (rule.version, s.db.verdict rule thisUserId) :=
    current_eq_some_iff.mpr ⟨rule, found, rfl, rfl⟩
  obtain ⟨verdict, kept, isContact, decided⟩ := sound.answers _ cached stored
  have same := sound.coherent _ _ _ here verdict kept
  rw [allows_of_rule other found, ← decided]
  rw [same] at decided ⊢
  cases which : s.db.verdict rule thisUserId with
  | always allow => rfl
  | contactsOnly =>
    rw [which] at decided
    exact decided.trans (unchanged which)

theorem single_eq_allows {verdicts : CacheKey → Option Verdict} (sound : Sound s verdicts)
    {userId : Nat} {key : PrivacyRuleKeyType}
    (unchanged : thisUserId ≠ userId → ∀ rule, s.db.rules.get (userId, key) = some rule →
      s.db.verdict rule thisUserId = .contactsOnly → ∀ cached,
        s.cache (rule.cacheKey thisUserId) = some cached →
          cached = s.db.isContact userId thisUserId) :
    (s.hasAccessTo thisUserId userId key).1 = s.db.allows thisUserId userId key := by
  rw [hasAccessTo_eq]
  split
  · rename_i own
    rw [Db.allows, if_pos own]
  · rename_i other
    cases found : s.db.rules.get (userId, key) with
    | none => rfl
    | some rule =>
      cases stored : s.cache (rule.cacheKey thisUserId) with
      | none => simp only [stored]
      | some cached =>
        simp only [stored]
        exact cached_eq_allows sound other found stored fun depends =>
          unchanged other rule found depends cached stored

theorem bulkValue_eq_allows {verdicts : CacheKey → Option Verdict} (sound : Sound s verdicts)
    (nonBot : ∀ u ∈ users, u.bot = false)
    (exact : ∀ c, contacts = some c → ∀ u ∈ users, u.id ∈ c ↔ s.db.isContact u.id thisUserId = true)
    (known : ContactsKnown s users thisUserId keys contacts) {u : Target} {key : PrivacyRuleKeyType}
    (unchanged : thisUserId ≠ u.id → ∀ rule, s.db.rules.get (u.id, key) = some rule →
      s.db.verdict rule thisUserId = .contactsOnly → ∀ cached,
        s.cache (rule.cacheKey thisUserId) = some cached → cached = s.db.isContact u.id thisUserId)
    (here : u ∈ users) (asked : key ∈ keys) (other : thisUserId ≠ u.id) :
    bulkValue s thisUserId ((contactsHad s users thisUserId keys contacts).getD []) u.id key =
      s.db.allows thisUserId u.id key := by
  have contains : ∀ c, contactsHad s users thisUserId keys contacts = some c →
      c.contains u.id = s.db.isContact u.id thisUserId := fun c had =>
    contactsHad_exact nonBot exact had here other
  unfold bulkValue
  cases found : s.db.rules.get (u.id, key) with
  | none =>
    rw [allows_of_none other found]
    cases had : contactsHad s users thisUserId keys contacts with
    | some c => exact congrArg (key.defaultAllowAll || ·) (contains c had)
    | none =>
      have default' : key.defaultAllowAll = true := by
        rcases bulk_isOk_iff.mp ((bulk_isOk_iff_contactsKnown nonBot).mpr known) with had' | all
        · rw [had] at had'
          cases had'
        · exact all (u.id, key) (mem_leftover.mpr
            ⟨(mem_userIds nonBot).mpr ⟨⟨u, here, rfl⟩, other⟩, asked, found⟩)
      simp [default']
  | some rule =>
    cases stored : s.cache (rule.cacheKey thisUserId) with
    | some cached =>
      simp only [stored, Option.getD_some]
      exact cached_eq_allows sound other found stored fun depends =>
        unchanged other rule found depends cached stored
    | none =>
      obtain ⟨c, had⟩ := Option.isSome_iff_exists.mp ((isSome_contactsHad_iff nonBot).mpr
        (.inr ⟨u, here, key, asked, other, rule, found, stored⟩))
      have named : rule.userId = u.id := congrArg Prod.fst (Table.get_eq_some_iff.mp found).2
      simp only [stored, Option.getD_none]
      rw [answer_eq_decide, allows_of_rule other found, named, had, Option.getD_some,
        contains c had]

/-- Checks of privacy rules agree, with each other and with the plain rule, exactly when no contact
has changed that a cached answer depends on, and contacts are known where they are needed. -/
theorem checks_agree_iff {db : Db} {ops : List Op}
    (run : runFrom step ⟨db, fun _ => none⟩ ops = some s) (nonBot : ∀ u ∈ users, u.bot = false)
    (exact : ∀ c, contacts = some c → ∀ u ∈ users, u.id ∈ c ↔ s.db.isContact u.id thisUserId = true) :
    Agrees s users thisUserId keys contacts ↔
      ContactsUnchanged s users thisUserId keys ∧ ContactsKnown s users thisUserId keys contacts := by
  obtain ⟨verdicts, sound⟩ := sound_of_run run
  constructor
  · rintro ⟨results, s', done, each⟩
    refine ⟨fun u here key asked other rule found depends cached stored => ?_,
      (bulk_isOk_iff_contactsKnown nonBot).mp ⟨results, s', done⟩⟩
    have plain := (each u here key asked).2
    simp only [hasAccessTo_eq, if_neg other, found, stored, allows_of_rule other found, depends]
      at plain
    exact plain
  · rintro ⟨unchanged, known⟩
    obtain ⟨results, s', done⟩ := (bulk_isOk_iff_contactsKnown nonBot).mpr known
    refine ⟨results, s', done, fun u here key asked => ?_⟩
    rw [bulk_results nonBot done u here key asked, single_eq_allows sound (unchanged u here key asked)]
    refine ⟨congrArg some ?_, rfl⟩
    by_cases own : thisUserId = u.id
    · rw [if_pos own, Db.allows, if_pos own]
    · rw [if_neg own]
      exact bulkValue_eq_allows sound nonBot exact known (unchanged u here key asked) here asked own

end Bulk

private def newcomers : Db := ⟨[1, 2], Table.empty, Table.empty, []⟩

private def stateAfter (ops : List Op) : State :=
  ops.foldl State.apply ⟨newcomers, fun _ => none⟩

private theorem run_stateAfter (ops : List Op) :
    runFrom step ⟨newcomers, fun _ => none⟩ ops = some (stateAfter ops) := by
  rw [stateAfter]
  generalize (⟨newcomers, fun _ => none⟩ : State) = s
  induction ops generalizing s with
  | nil => rfl
  | cons op ops ih => exact runFrom_cons_some.mpr ⟨_, rfl, ih _⟩

/-- The second user has the first as a contact, who has looked at the phone number. -/
private def befriended : List Op :=
  [.createDefaultsForUser 2, .addContact 2 1 false, .hasAccessTo 1 2 .phoneNumber]

private theorem befriended_rule : (stateAfter befriended).db.rules.get (2, .phoneNumber) =
    some ⟨2, .phoneNumber, false, true, 0⟩ := by
  decide +kernel

theorem befriended_agrees :
    Agrees (stateAfter befriended) [⟨2, false⟩] 1 [.phoneNumber, .giftsAutosave] none := by
  refine (checks_agree_iff (run_stateAfter befriended) (by decide) (fun _ given => by cases given)).mpr
    ⟨fun u here key asked _ rule found depends cached stored => ?_, .inr (.inr ?_)⟩
  · obtain rfl := List.mem_singleton.mp here
    have contact : (stateAfter befriended).db.isContact 2 1 = true := by decide +kernel
    have known : (stateAfter befriended).cache (⟨1, 2, .phoneNumber⟩, 0) = some true := by
      decide +kernel
    rcases List.mem_cons.mp asked with rfl | last
    · cases befriended_rule.symm.trans found
      rw [contact]
      exact Option.some.inj (stored.symm.trans known)
    · obtain rfl := List.mem_singleton.mp last
      have absent : (stateAfter befriended).db.rules.get (2, .giftsAutosave) = none := by
        decide +kernel
      cases absent.symm.trans found
  · intro u here key asked _ absent
    obtain rfl := List.mem_singleton.mp here
    rcases List.mem_cons.mp asked with rfl | last
    · cases befriended_rule.symm.trans absent
    · obtain rfl := List.mem_singleton.mp last
      rfl

private def belated : List Op :=
  [.createDefaultsForUser 2, .hasAccessTo 1 2 .phoneNumber, .addContact 2 1 false]

/-- The answer from before is still cached. -/
theorem new_contact_refused : ¬ ∀ (db : Db) (ops : List Op) (s : State) (users : List Target)
    (thisUserId : Nat) (keys : List PrivacyRuleKeyType) (contacts : Option (List Nat)),
    runFrom step ⟨db, fun _ => none⟩ ops = some s → (∀ u ∈ users, u.bot = false) →
    (∀ c, contacts = some c → ∀ u ∈ users, u.id ∈ c ↔ s.db.isContact u.id thisUserId = true) →
      Agrees s users thisUserId keys contacts := by
  intro all
  obtain ⟨results, s', -, each⟩ := all newcomers belated (stateAfter belated) [⟨2, false⟩] 1
    [.phoneNumber] none (run_stateAfter belated) (by decide) (fun _ given => by cases given)
  have plain := (each ⟨2, false⟩ List.mem_cons_self .phoneNumber List.mem_cons_self).2
  exact absurd plain (by decide +kernel)

end Piltover.Privacy
