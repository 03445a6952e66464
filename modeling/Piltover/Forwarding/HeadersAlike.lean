/- source: piltover/db/models/message_content.py, piltover/db/models/privacy_rule.py
   digest: The headers of forwarded messages made one by one and many at once, and when they are the
     same. -/

import Piltover.Forwarding.CopiesAlike
import Piltover.Privacy.Agreement

set_option autoImplicit false

namespace Piltover.Forwarding.OneByOne

open Piltover.Contents
open Piltover.Foundation
open Piltover.Privacy (State PrivacyRule PrivacyRuleKeyType hasAccessTo_eq)

/-- The rules and what is cached of them: for users, and under `None`. -/
structure Access where
  rules : State
  unnamed : (Nat × PrivacyRuleKeyType) × Nat → Option Bool

namespace Access

variable (s : Access)

/-- A contact of the user that is no user yet. -/
def hasUnknownContact (ownerId : Nat) : Bool :=
  s.rules.db.contacts.any fun c => c.ownerId == ownerId && c.targetId.isNone

/-- `has_access_to` for the key of forwards. The owner of a channel's peer is `None`, which has no
exceptions. -/
def hasAccessTo (currentId : Option Nat) (targetId : Nat) : Bool × Access :=
  match currentId with
  | some id =>
    ((s.rules.hasAccessTo id targetId .forwards).1,
      { s with rules := (s.rules.hasAccessTo id targetId .forwards).2 })
  | none =>
    match s.rules.db.rules.get (targetId, .forwards) with
    | none =>
      (if PrivacyRuleKeyType.forwards.defaultAllowAll then true
        else s.hasUnknownContact targetId, s)
    | some rule =>
      match s.unnamed (rule.slot, rule.version) with
      | some cached => (cached, s)
      | none =>
        let result := rule.allowAll || rule.allowContacts && s.hasUnknownContact targetId
        (result, { s with
          unnamed := Function.update s.unnamed (rule.slot, rule.version) (some result) })

/-- Whether the one may see the other as the author of forwarded messages. -/
def sees (currentId : Option Nat) (targetId : Nat) : Bool := (s.hasAccessTo currentId targetId).1

/-- Where a message comes from, as `create_fwd_header` finds it. -/
def origin (ref : MessageRef) (discussion : Bool) : Except Failure (Origin × Access) :=
  match if discussion then none else ref.content.fwdHeader with
  | some header => .ok (header.origin, s)
  | none =>
    if ref.content.channelPost then
      (present ref.peer.channel).map fun channel =>
        (⟨none, none, some channel.id, channel.name, some ref.id, ref.content.postAuthor⟩, s)
    else
      (present ref.content.author).map fun author =>
        let (allowed, s) := s.hasAccessTo ref.peer.ownerId author.id
        (⟨if allowed then some author.id else none, none, none, author.firstName, none, none⟩,
          s)

def savedPeer (ref : MessageRef) (toSelf : Bool) : Option Peer × Access :=
  if toSelf then
    match ref.peer.target with
    | .user userId =>
      let (allowed, s) := s.hasAccessTo ref.peer.ownerId userId
      (if allowed then some ref.peer else none, s)
    | _ => (some ref.peer, s)
  else (none, s)

def createFwdHeader (ref : MessageRef) (toSelf discussion : Bool) :
    Except Failure (MessageFwdHeader × Access) := do
  let (origin, s) ← s.origin ref discussion
  let (savedPeer, s) := s.savedPeer ref toSelf
  let author ← savedFrom toSelf ref
  let header ← MessageFwdHeader.create {
    fromUser := origin.fromUser
    fromChat := origin.fromChat
    fromChannel := origin.fromChannel
    fromName := origin.fromName
    date := (ref.content.fwdHeader.map MessageFwdHeader.date).getD ref.content.date
    savedOut := !discussion
    channelPostId := origin.channelPostId
    channelPostAuthor := origin.channelPostAuthor
    savedPeer := savedPeer
    savedId := if toSelf then some ref.id else none
    savedFrom := author.map User.id
    savedName := author.map User.firstName
    savedDate := if toSelf then some ref.content.date else none }
  .ok (header, s)

/-- `fetch_privacy_rules_for`, for one of the messages. -/
def fetchedFor (toSelf : Bool) (ref : MessageRef) : List Nat :=
  (if ref.content.fwdHeader.isNone && !ref.content.channelPost then
    (ref.content.author.map User.id).toList else []) ++
    match ref.peer.target with
    | .user userId => if toSelf then [userId] else []
    | _ => []

def createFwdHeaderBulk (refs : List MessageRef) (userId : Nat) (toSelf : Bool) :
    Except Failure (List MessageFwdHeader × Access) :=
  if refs.isEmpty then .ok ([], s)
  else do
    let users := (refs.flatMap (fetchedFor toSelf)).map fun id => ⟨id, false⟩
    let (privacyRules, rules) ← s.rules.hasAccessToBulk users userId [.forwards] none
    let headers ← Contents.createFwdHeaderBulk
      (fun id => (privacyRules id .forwards).getD false) toSelf refs
    .ok (headers, { s with rules })

end Access

/-- Each header made among many is the one that is made alone. -/
def HeadersAlike (s : Access) (userId : Nat) (toSelf : Bool) (refs : List MessageRef) : Prop :=
  ∀ i (inside : i < refs.length),
    (s.createFwdHeaderBulk refs userId toSelf).map (fun made => made.1[i]?) =
      (s.createFwdHeader refs[i] toSelf false).map fun made => some made.1

def Looked (toSelf : Bool) (ref : MessageRef) (userId : Nat) : Prop :=
  (ref.content.fwdHeader = none ∧ ref.content.channelPost = false ∧
      ∃ author, ref.content.author = some author ∧ author.id = userId) ∨
    (toSelf = true ∧ ref.peer.target = .user userId)

section Headers

variable {s : Access} {toSelf : Bool} {ref : MessageRef} {refs : List MessageRef}
  {p q : Nat → Bool}

theorem ite_some_inj {α : Type} {a b : Bool} {x : α} :
    ((if a then some x else none) = if b then some x else none) ↔ a = b := by
  cases a <;> cases b <;> simp

theorem origin_eq_iff : Contents.origin p ref = Contents.origin q ref ↔
    (ref.content.fwdHeader = none → ref.content.channelPost = false →
      ∀ author, ref.content.author = some author → p author.id = q author.id) := by
  unfold Contents.origin
  cases ref.content.fwdHeader with
  | some header => exact iff_of_true rfl fun absent => by cases absent
  | none =>
    cases ref.content.channelPost with
    | true => exact iff_of_true rfl fun _ isFalse => by cases isFalse
    | false =>
      cases ref.content.author with
      | none => exact iff_of_true rfl fun _ _ author named => by cases named
      | some author =>
        constructor
        · intro same _ _ other named
          cases named
          exact ite_some_inj.mp (congrArg Origin.fromUser (Except.ok.inj same))
        · intro agree
          show Except.ok (Origin.mk (if p author.id then some author.id else none) none none
            author.firstName none none) = _
          rw [agree rfl rfl author rfl]
          rfl

theorem savedPeer_eq_iff :
    (if toSelf then Contents.savedPeer p ref else none) =
        (if toSelf then Contents.savedPeer q ref else none) ↔
      (toSelf = true → ∀ userId, ref.peer.target = .user userId → p userId = q userId) := by
  unfold Contents.savedPeer
  cases toSelf with
  | false => exact iff_of_true rfl fun isTrue => by cases isTrue
  | true =>
    rw [if_pos rfl, if_pos rfl]
    cases ref.peer.target with
    | user userId =>
      dsimp only
      rw [ite_some_inj]
      exact ⟨fun same _ other named => by cases named; exact same,
        fun agree => agree rfl userId rfl⟩
    | self => exact iff_of_true rfl fun _ _ named => by cases named
    | chat c => exact iff_of_true rfl fun _ _ named => by cases named
    | channel c => exact iff_of_true rfl fun _ _ named => by cases named

/-- Two ways to see users give a message the same header exactly if they agree on the users that it
depends on. -/
theorem createFwdHeader_eq_iff (credited : Credited toSelf ref) :
    Contents.createFwdHeader p toSelf ref = Contents.createFwdHeader q toSelf ref ↔
      ∀ userId, Looked toSelf ref userId → p userId = q userId := by
  obtain ⟨fromP, originP, fitsP⟩ := (exists_origin p).mpr credited.1
  obtain ⟨fromQ, originQ, fitsQ⟩ := (exists_origin q).mpr credited.1
  obtain ⟨author, saved, named⟩ := exists_savedFrom.mpr credited.2
  have parts : Contents.createFwdHeader p toSelf ref = Contents.createFwdHeader q toSelf ref ↔
      Contents.origin p ref = Contents.origin q ref ∧
        (if toSelf then Contents.savedPeer p ref else none) =
          if toSelf then Contents.savedPeer q ref else none := by
    rw [Contents.createFwdHeader, Contents.createFwdHeader, originP, originQ, saved]
    show MessageFwdHeader.create _ = MessageFwdHeader.create _ ↔ _
    rw [create_eq_ok.mpr ⟨⟨fitsP, named⟩, rfl⟩, create_eq_ok.mpr ⟨⟨fitsQ, named⟩, rfl⟩]
    constructor
    · intro same
      have equal := Except.ok.inj same
      exact ⟨congrArg Except.ok (congrArg MessageFwdHeader.origin equal),
        congrArg MessageFwdHeader.savedPeer equal⟩
    · rintro ⟨sameOrigin, samePeer⟩
      cases sameOrigin
      refine congrArg Except.ok ?_
      rw [samePeer]
  rw [parts, origin_eq_iff, savedPeer_eq_iff]
  constructor
  · rintro ⟨ofAuthor, ofPeer⟩ userId (⟨own, plain, known, named, rfl⟩ | ⟨isSelf, named⟩)
    · exact ofAuthor own plain known named
    · exact ofPeer isSelf userId named
  · intro agree
    exact ⟨fun own plain known named => agree known.id (.inl ⟨own, plain, known, named, rfl⟩),
      fun isSelf userId named => agree userId (.inr ⟨isSelf, named⟩)⟩

theorem createFwdHeader_congr (agree : ∀ userId, Looked toSelf ref userId → p userId = q userId) :
    Contents.createFwdHeader p toSelf ref = Contents.createFwdHeader q toSelf ref := by
  by_cases credited : Credited toSelf ref
  · exact (createFwdHeader_eq_iff credited).mpr agree
  · have fails : ∀ r, Contents.createFwdHeader r toSelf ref = .error .other := by
      intro r
      have unrefused : Unrefused (Contents.createFwdHeader r toSelf ref) :=
        unrefused_createFwdHeader
      rcases unrefused.cases with raised | made
      · exact raised
      · exact absurd ((exists_createFwdHeader r).mp made) credited
    rw [fails, fails]

/-! One check leaves the others as they were. -/

theorem hasAccessTo_fst (t : State) (currentId targetId : Nat) (key : PrivacyRuleKeyType) :
    (t.hasAccessTo currentId targetId key).1 =
      if currentId = targetId then true
      else match t.db.rules.get (targetId, key) with
        | none => t.db.allows currentId targetId key
        | some rule =>
          (t.cache (rule.cacheKey currentId)).getD (t.db.allows currentId targetId key) := by
  rw [hasAccessTo_eq]
  split
  · rfl
  · cases t.db.rules.get (targetId, key) with
    | none => rfl
    | some rule =>
      dsimp only
      cases t.cache (rule.cacheKey currentId) <;> rfl

theorem hasAccessTo_snd (t : State) (currentId targetId : Nat) (key : PrivacyRuleKeyType) :
    (t.hasAccessTo currentId targetId key).2 = t ∨
      ∃ rule, t.db.rules.get (targetId, key) = some rule ∧
        t.cache (rule.cacheKey currentId) = none ∧
        (t.hasAccessTo currentId targetId key).2 =
          t.store (rule.cacheKey currentId) (t.db.allows currentId targetId key) := by
  rw [hasAccessTo_eq]
  split
  · exact .inl rfl
  · cases found : t.db.rules.get (targetId, key) with
    | none => exact .inl rfl
    | some rule =>
      dsimp only
      cases stored : t.cache (rule.cacheKey currentId) with
      | some cached => exact .inl rfl
      | none => exact .inr ⟨rule, rfl, stored, rfl⟩

theorem db_hasAccessTo (t : State) (currentId targetId : Nat) (key : PrivacyRuleKeyType) :
    (t.hasAccessTo currentId targetId key).2.db = t.db := by
  rcases hasAccessTo_snd t currentId targetId key with same | ⟨rule, -, -, stored⟩
  · rw [same]
  · rw [stored]
    rfl

theorem hasAccessTo_after (t : State) (currentId targetId currentId' targetId' : Nat)
    (key key' : PrivacyRuleKeyType) :
    ((t.hasAccessTo currentId targetId key).2.hasAccessTo currentId' targetId' key').1 =
      (t.hasAccessTo currentId' targetId' key').1 := by
  rcases hasAccessTo_snd t currentId targetId key with same | ⟨rule, found, free, stored⟩
  · rw [same]
  · rw [stored, hasAccessTo_fst, hasAccessTo_fst]
    split
    · rfl
    · show (match t.db.rules.get (targetId', key') with
        | none => _
        | some rule => _) = _
      cases found' : t.db.rules.get (targetId', key') with
      | none => rfl
      | some rule' =>
        show ((if rule'.cacheKey currentId' = rule.cacheKey currentId then
          some (t.db.allows currentId targetId key) else t.cache (rule'.cacheKey currentId')).getD
            (t.db.allows currentId' targetId' key')) = (t.cache (rule'.cacheKey currentId')).getD
              (t.db.allows currentId' targetId' key')
        split
        case isTrue same =>
            have sameUser : currentId' = currentId := congrArg (fun k => k.1.thisUser) same
            have sameSlot : rule'.slot = rule.slot :=
              Prod.ext (congrArg (fun k => k.1.ruleUser) same) (congrArg (fun k => k.1.key) same)
            rw [(Table.get_eq_some_iff.mp found').2, (Table.get_eq_some_iff.mp found).2]
              at sameSlot
            cases sameSlot
            rw [same, free, sameUser]
            rfl
        case isFalse _ => rfl

namespace Access

/-- What is answered under `None` where nothing is cached. -/
def toNobody (s : Access) (rule : PrivacyRule) : Bool :=
  rule.allowAll || rule.allowContacts && s.hasUnknownContact rule.userId

theorem sees_none (s : Access) (targetId : Nat) : s.sees none targetId =
    match s.rules.db.rules.get (targetId, .forwards) with
    | none => true
    | some rule => (s.unnamed (rule.slot, rule.version)).getD (s.toNobody rule) := by
  rw [sees, hasAccessTo]
  cases found : s.rules.db.rules.get (targetId, .forwards) with
  | none => rfl
  | some rule =>
    have named : rule.userId = targetId :=
      congrArg Prod.fst (Table.get_eq_some_iff.mp found).2
    dsimp only
    rw [toNobody, named]
    cases s.unnamed (rule.slot, rule.version) <;> rfl

theorem hasAccessTo_none_snd (s : Access) (targetId : Nat) :
    (s.hasAccessTo none targetId).2 = s ∨
      ∃ rule, s.rules.db.rules.get (targetId, .forwards) = some rule ∧
        s.unnamed (rule.slot, rule.version) = none ∧
        (s.hasAccessTo none targetId).2 = { s with
          unnamed := Function.update s.unnamed (rule.slot, rule.version)
            (some (s.toNobody rule)) } := by
  rw [hasAccessTo]
  cases found : s.rules.db.rules.get (targetId, .forwards) with
  | none => exact .inl rfl
  | some rule =>
    have named : rule.userId = targetId :=
      congrArg Prod.fst (Table.get_eq_some_iff.mp found).2
    cases stored : s.unnamed (rule.slot, rule.version) with
    | some cached =>
      refine .inl ?_
      dsimp only
      rw [stored]
    | none =>
      refine .inr ⟨rule, rfl, stored, ?_⟩
      dsimp only
      rw [stored, toNobody, named]

theorem sees_after (s : Access) (currentId currentId' : Option Nat) (targetId targetId' : Nat) :
    (s.hasAccessTo currentId targetId).2.sees currentId' targetId' =
      s.sees currentId' targetId' := by
  cases currentId with
  | some id =>
    cases currentId' with
    | some id' => exact hasAccessTo_after s.rules id targetId id' targetId' _ _
    | none =>
      have sameDb := db_hasAccessTo s.rules id targetId .forwards
      rw [sees_none, sees_none]
      show (match (s.rules.hasAccessTo id targetId .forwards).2.db.rules.get
        (targetId', .forwards) with
        | none => _
        | some rule => (s.unnamed (rule.slot, rule.version)).getD (rule.allowAll ||
            rule.allowContacts && (s.rules.hasAccessTo id targetId .forwards).2.db.contacts.any
              fun c => c.ownerId == rule.userId && c.targetId.isNone)) = _
      rw [sameDb]
      rfl
  | none =>
    rcases s.hasAccessTo_none_snd targetId with same | ⟨rule, found, free, stored⟩
    · rw [same]
    · rw [stored]
      cases currentId' with
      | some id' => rfl
      | none =>
        rw [sees_none, sees_none]
        show (match s.rules.db.rules.get (targetId', .forwards) with
          | none => _
          | some rule' => (Function.update s.unnamed (rule.slot, rule.version)
              (some (s.toNobody rule)) (rule'.slot, rule'.version)).getD (s.toNobody rule')) = _
        cases found' : s.rules.db.rules.get (targetId', .forwards) with
        | none => rfl
        | some rule' =>
          by_cases same : (rule'.slot, rule'.version) = (rule.slot, rule.version)
          · have sameSlot : rule'.slot = rule.slot := congrArg Prod.fst same
            rw [(Table.get_eq_some_iff.mp found').2, (Table.get_eq_some_iff.mp found).2]
              at sameSlot
            cases sameSlot
            rw [found] at found'
            cases found'
            dsimp only
            rw [Function.update_self, free]
            rfl
          · dsimp only
            rw [Function.update_of_ne same]

theorem origin_single (s : Access) (ref : MessageRef) : ∃ s' : Access, s'.sees = s.sees ∧
    s.origin ref false =
      (Contents.origin (s.sees ref.peer.ownerId) ref).map fun origin => (origin, s') := by
  unfold Access.origin Contents.origin
  cases ref.content.fwdHeader with
  | some header => exact ⟨s, rfl, rfl⟩
  | none =>
    cases ref.content.channelPost with
    | true =>
      refine ⟨s, rfl, ?_⟩
      cases ref.peer.channel <;> rfl
    | false =>
      cases ref.content.author with
      | none => exact ⟨s, rfl, rfl⟩
      | some author =>
        refine ⟨(s.hasAccessTo ref.peer.ownerId author.id).2, ?_, rfl⟩
        funext currentId targetId
        exact s.sees_after _ _ _ _

theorem savedPeer_single (s : Access) (ref : MessageRef) (toSelf : Bool) :
    (s.savedPeer ref toSelf).1 =
      if toSelf then Contents.savedPeer (s.sees ref.peer.ownerId) ref else none := by
  unfold Access.savedPeer Contents.savedPeer
  cases toSelf with
  | false => rfl
  | true =>
    rw [if_pos rfl, if_pos rfl]
    cases ref.peer.target <;> rfl

theorem map_fst_bind {α β : Type} (x : Except Failure α) (b : β) :
    (x >>= fun a => .ok (a, b)).map Prod.fst = x := by
  cases x <;> rfl

theorem createFwdHeader_single (s : Access) (ref : MessageRef) (toSelf : Bool) :
    (s.createFwdHeader ref toSelf false).map Prod.fst =
      Contents.createFwdHeader (s.sees ref.peer.ownerId) toSelf ref := by
  obtain ⟨s', same, found⟩ := s.origin_single ref
  rw [Access.createFwdHeader, found, Contents.createFwdHeader]
  cases Contents.origin (s.sees ref.peer.ownerId) ref with
  | error failure => rfl
  | ok origin =>
    have peer := s'.savedPeer_single ref toSelf
    rw [same] at peer
    rw [← peer]
    show (savedFrom toSelf ref >>= _).map _ = (savedFrom toSelf ref >>= _)
    cases savedFrom toSelf ref with
    | error failure => rfl
    | ok author => exact map_fst_bind (MessageFwdHeader.create _) _

theorem bulk_sees (s : Access) (users : List Privacy.Target) (userId : Nat)
    (nonBot : ∀ u ∈ users, u.bot = false) : ∃ results rules,
      s.rules.hasAccessToBulk users userId [.forwards] none = .ok (results, rules) ∧
        ∀ u ∈ users, results u.id .forwards = some (s.sees (some userId) u.id) := by
  have returns : ∃ results rules,
      s.rules.hasAccessToBulk users userId [.forwards] none = .ok (results, rules) := by
    refine Privacy.bulk_isOk_iff.mpr (.inr fun x left => ?_)
    rw [List.mem_singleton.mp (Privacy.mem_leftover.mp left).2.1]
    rfl
  obtain ⟨results, rules, done⟩ := returns
  refine ⟨results, rules, done, fun u here => ?_⟩
  rw [Privacy.bulk_results nonBot done u here .forwards List.mem_cons_self, sees, hasAccessTo,
    hasAccessTo_fst]
  split
  · rfl
  · next other =>
      rw [Privacy.bulkValue]
      cases found : s.rules.db.rules.get (u.id, .forwards) with
      | none =>
        rw [Privacy.allows_of_none other found]
        rfl
      | some rule =>
        cases stored : s.rules.cache (rule.cacheKey userId) with
        | some cached =>
          dsimp only
          rw [stored]
          rfl
        | none =>
          have loads : (Privacy.contactsHad s.rules users userId [.forwards] none).isSome =
              true := (Privacy.isSome_contactsHad_iff nonBot).mpr
            (.inr ⟨u, here, .forwards, List.mem_cons_self, other, rule, found, stored⟩)
          obtain ⟨c, had⟩ := Option.isSome_iff_exists.mp loads
          have named : rule.userId = u.id :=
            congrArg Prod.fst (Table.get_eq_some_iff.mp found).2
          have contact := Privacy.contactsHad_exact nonBot (fun _ given => by cases given) had
            here other
          dsimp only
          rw [stored, Option.getD_none, Option.getD_none, Privacy.answer_eq_decide,
            Privacy.allows_of_rule other found, named, had, Option.getD_some, contact]

theorem fetched_of_looked {toSelf : Bool} {ref : MessageRef} {userId : Nat}
    (looked : Looked toSelf ref userId) : userId ∈ fetchedFor toSelf ref := by
  rw [fetchedFor, List.mem_append]
  rcases looked with ⟨own, plain, author, named, rfl⟩ | ⟨rfl, named⟩
  · left
    rw [own, plain, named]
    exact List.mem_singleton_self _
  · right
    rw [named]
    exact List.mem_singleton_self _

theorem createFwdHeaderBulk_eq (s : Access) (userId : Nat) (toSelf : Bool)
    (refs : List MessageRef) :
    (s.createFwdHeaderBulk refs userId toSelf).map Prod.fst =
      refs.mapM (Contents.createFwdHeader (s.sees (some userId)) toSelf) := by
  rw [Access.createFwdHeaderBulk]
  cases refs with
  | nil => rfl
  | cons first refs =>
    rw [List.isEmpty_cons, if_neg Bool.false_ne_true]
    dsimp only
    generalize isAll : first :: refs = all
    obtain ⟨results, rules, done, answers⟩ := s.bulk_sees
      ((all.flatMap (fetchedFor toSelf)).map fun id => ⟨id, false⟩) userId fun u listed => by
        obtain ⟨id, -, rfl⟩ := List.mem_map.mp listed
        rfl
    have same : Contents.createFwdHeaderBulk (fun id => (results id .forwards).getD false) toSelf
        all = all.mapM (Contents.createFwdHeader (s.sees (some userId)) toSelf) := by
      refine mapM_congr fun ref listed => createFwdHeader_congr fun id looked => ?_
      have asked : (⟨id, false⟩ : Privacy.Target) ∈
          (all.flatMap (fetchedFor toSelf)).map fun id => ⟨id, false⟩ :=
        List.mem_map_of_mem (List.mem_flatMap.mpr ⟨ref, listed, fetched_of_looked looked⟩)
      rw [answers _ asked]
      rfl
    rw [done]
    show (Contents.createFwdHeaderBulk (fun id => (results id .forwards).getD false) toSelf all
      >>= _).map _ = _
    rw [same]
    cases all.mapM (Contents.createFwdHeader (s.sees (some userId)) toSelf) <;> rfl

end Access

/-- The user who forwards sees the same users as the owner of the conversation, where the header of
the message depends on it. -/
def SameView (s : Access) (userId : Nat) (toSelf : Bool) (ref : MessageRef) : Prop :=
  ∀ id, Looked toSelf ref id → s.sees (some userId) id = s.sees ref.peer.ownerId id

theorem headersAlike_iff {userId : Nat} : HeadersAlike s userId toSelf refs ↔
    (∀ ref ∈ refs, Credited toSelf ref ∧ SameView s userId toSelf ref) ∨
      ∀ ref ∈ refs, ¬ Credited toSelf ref := by
  have pointwise := mapM_pointwise_iff (l := refs)
    (f := Contents.createFwdHeader (s.sees (some userId)) toSelf)
    (g := fun ref => Contents.createFwdHeader (s.sees ref.peer.ownerId) toSelf ref)
    (fun _ _ => unrefused_createFwdHeader) (fun _ _ => unrefused_createFwdHeader)
    fun ref _ => (exists_createFwdHeader _).trans (exists_createFwdHeader _).symm
  have places : HeadersAlike s userId toSelf refs ↔ ∀ i (inside : i < refs.length),
      (refs.mapM (Contents.createFwdHeader (s.sees (some userId)) toSelf)).map
        (fun made => made[i]?) =
      (Contents.createFwdHeader (s.sees refs[i].peer.ownerId) toSelf refs[i]).map some := by
    refine forall₂_congr fun i inside => ?_
    rw [← s.createFwdHeaderBulk_eq, ← s.createFwdHeader_single]
    cases s.createFwdHeaderBulk refs userId toSelf <;>
      cases s.createFwdHeader refs[i] toSelf false <;> rfl
  rw [places, pointwise]
  refine or_congr (forall₂_congr fun ref _ => ?_) (forall₂_congr fun ref _ => ?_)
  · constructor
    · rintro ⟨header, many, one⟩
      have credited := (exists_createFwdHeader _).mp ⟨header, one⟩
      exact ⟨credited, (createFwdHeader_eq_iff credited).mp (many.trans one.symm)⟩
    · rintro ⟨credited, same⟩
      obtain ⟨header, many⟩ := (exists_createFwdHeader (s.sees (some userId))).mpr credited
      exact ⟨header, many, ((createFwdHeader_eq_iff credited).mpr same).symm.trans many⟩
  · exact not_congr (exists_createFwdHeader _)

end Headers

/-- Copies and headers are the same one by one and many at once exactly if what is needed is known
for all of them or for none, and who forwards sees the authors as the owners of the conversations
do. -/
theorem alike_iff (db : Db) (uuid : Nat ↪ Nat) (relatedPeer : Peer) (args : CloneForward)
    (items : List Item) (s : Access) (userId : Nat) (toSelf : Bool) (refs : List MessageRef) :
    ClonesAlike db uuid relatedPeer args items ∧ HeadersAlike s userId toSelf refs ↔
      ((∀ item ∈ items, Copied args item) ∨ ∀ item ∈ items, ¬ Copied args item) ∧
        ((∀ ref ∈ refs, Credited toSelf ref ∧ SameView s userId toSelf ref) ∨
          ∀ ref ∈ refs, ¬ Credited toSelf ref) :=
  and_congr clonesAlike_iff headersAlike_iff

/-- Only contacts are told the author's name, and the first user is one. -/
private def reserved : Access where
  rules := ⟨⟨[1, 2], ⟨[⟨2, .forwards, false, true, 0⟩], by decide⟩, Table.empty, [⟨2, some 1⟩]⟩,
    fun _ => none⟩
  unnamed := fun _ => none

private def inSupergroup : MessageRef where
  id := 70
  peer := ⟨9, none, .channel ⟨4, "group", false, true, false, false⟩, false, nofun⟩
  content := { id := 30, date := 5, author := some ⟨2, "Ann", false⟩ }

/-- The author of a message in a supergroup is told to a contact that forwards several messages, and
not to one that forwards it alone. -/
theorem contact_told_in_bulk :
    (reserved.createFwdHeaderBulk [inSupergroup] 1 false).map (fun made => made.1.map
        MessageFwdHeader.fromUser) = .ok [some 2] ∧
      (reserved.createFwdHeader inSupergroup false false).map (fun made => made.1.fromUser) =
        .ok none ∧
      ¬ ∀ (db : Db) (uuid : Nat ↪ Nat) (relatedPeer : Peer) (args : CloneForward)
        (items : List Item) (s : Access) (userId : Nat) (toSelf : Bool) (refs : List MessageRef),
          ClonesAlike db uuid relatedPeer args items ∧ HeadersAlike s userId toSelf refs := by
  refine ⟨by decide +kernel, by decide +kernel, fun all => ?_⟩
  have both := (all ⟨[], 1⟩ (Function.Embedding.refl Nat) inSupergroup.peer
    ⟨none, false, false, true, false, none, none, none, none, false, 6⟩ [] reserved 1 false
    [inSupergroup]).2
  rcases headersAlike_iff.mp both with same | none
  · have seen := (same inSupergroup List.mem_cons_self).2 2 (.inl ⟨rfl, rfl, _, rfl, rfl⟩)
    exact absurd seen (by decide +kernel)
  · exact none inSupergroup List.mem_cons_self ⟨⟨_, rfl, by decide⟩, nofun⟩

end Piltover.Forwarding.OneByOne
