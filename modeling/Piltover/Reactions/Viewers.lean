/- source: piltover/db/models/message_ref.py, piltover/db/models/message_reaction.py
   digest: When nobody is shown reactions that were formatted for somebody else, or for a list. -/

import Mathlib.Algebra.BigOperators.Group.List.Lemmas
import Piltover.Reactions.Formatted

set_option autoImplicit false

namespace Piltover.Reactions

open Piltover.Foundation

section

variable {db : Db} {userId messageId : Nat}

/-! ### The two computations -/

theorem chosen_iff {choice : Choice} {userReaction : Option Choice} :
    (choice.reactionId = userReaction.bind (·.reactionId) ∧
      choice.customEmojiId = userReaction.bind (·.customEmojiId)) ↔ some choice = userReaction := by
  cases userReaction with
  | none =>
    refine iff_of_false (fun both => ?_) (Option.some_ne_none choice)
    rcases choice.named with named | named
    · exact named both.1
    · exact named both.2
  | some mine =>
    rw [Option.some.injEq]
    constructor
    · rintro ⟨reaction, customEmoji⟩
      cases choice
      cases mine
      cases reaction
      cases customEmoji
      rfl
    · rintro rfl
      exact ⟨rfl, rfl⟩

theorem sum_groups : ((db.groups messageId).map (·.2)).sum = (db.reactionsTo messageId).length := by
  rw [Db.groups, List.map_map]
  exact (List.sum_map_count_dedup_eq_length _).trans (List.length_map _)

def inBulk (db : Db) (userId messageId : Nat) (recents : Option (List MessagePeerReaction)) :
    MessageReactions :=
  { computed db userId messageId with
    min := (db.userReaction userId messageId).isNone &&
      (db.contents messageId).authorId != some userId
    recentReactions := recents }

theorem inBulk_eq_computed_iff {recents : Option (List MessagePeerReaction)} :
    inBulk db userId messageId recents = computed db userId messageId ↔
      ((db.contents messageId).authorId = some userId →
          db.userReaction userId messageId ≠ none) ∧
        recents = (computed db userId messageId).recentReactions := by
  have same : inBulk db userId messageId recents = computed db userId messageId ↔
      ((db.userReaction userId messageId).isNone &&
          (db.contents messageId).authorId != some userId) =
        (db.userReaction userId messageId).isNone ∧
        recents = (computed db userId messageId).recentReactions := by
    constructor
    · intro equal
      exact ⟨congrArg MessageReactions.min equal, congrArg MessageReactions.recentReactions equal⟩
    · rintro ⟨minimum, rfl⟩
      rw [inBulk, minimum]
      rfl
  rw [same]
  refine and_congr_left' ?_
  cases db.userReaction userId messageId with
  | none => simp
  | some choice => simp

def few (db : Db) (messageId : Nat) : Bool := (db.reactionsTo messageId).length ≤ 5

theorem entry_of_cached {userReactions : Nat → Option Choice} {notCachedIds : List Nat}
    {cacheKey : CacheKey} {value : MessageReactions}
    (regular : (db.contents messageId).regular = true) :
    entry db userId userReactions notCachedIds messageId cacheKey (some value) =
      .done (some value) := by
  rw [entry, if_pos regular]

theorem entry_of_uncached {userReactions : Nat → Option Choice} {notCachedIds : List Nat}
    {cacheKey : CacheKey} (regular : (db.contents messageId).regular = true)
    (known : userReactions messageId = db.userReaction userId messageId)
    (listed : notCachedIds.contains messageId = true) :
    entry db userId userReactions notCachedIds messageId cacheKey none =
      .computed messageId cacheKey (inBulk db userId messageId
        (if (db.contents messageId).canSeeReactionsList && few db messageId then some []
          else none)) := by
  rw [entry, if_pos regular]
  dsimp only
  rw [if_pos listed, sum_groups, known, inBulk, computed, few]
  simp only [chosen_iff]

/-! ### Whose result is cached -/

/-- A user who asks for the reactions to a message. -/
abbrev Asker := Nat × Nat

def keyOf (db : Db) (asker : Asker) : CacheKey :=
  keyFor db asker.1 asker.2 (db.userReaction asker.1 asker.2)

def computedFor (db : Db) (asker : Asker) : MessageReactions := computed db asker.1 asker.2

theorem positive_getD {a b : Option Nat} (a0 : a ≠ some 0) (b0 : b ≠ some 0) :
    a.getD 0 = b.getD 0 ↔ a = b := by
  cases a <;> cases b <;> simp_all [eq_comm]

theorem cacheKeyReactions_inj {messageId' : Nat} {mine others : Option Choice} :
    cacheKeyReactions db messageId (mine.bind (·.reactionId)) (mine.bind (·.customEmojiId)) =
        cacheKeyReactions db messageId' (others.bind (·.reactionId))
          (others.bind (·.customEmojiId)) ↔ messageId = messageId' ∧ mine = others := by
  have positive : ∀ choice : Option Choice,
      choice.bind (·.reactionId) ≠ some 0 ∧ choice.bind (·.customEmojiId) ≠ some 0 := by
    rintro (_ | choice)
    · exact ⟨by simp, by simp⟩
    · exact choice.positive
  constructor
  · intro same
    rw [cacheKeyReactions, cacheKeyReactions, CacheKey.reaction.injEq,
      positive_getD (positive mine).1 (positive others).1,
      positive_getD (positive mine).2 (positive others).2] at same
    obtain ⟨rfl, reaction, customEmoji, -⟩ := same
    refine ⟨rfl, ?_⟩
    cases mine with
    | some choice => exact chosen_iff.mp ⟨reaction, customEmoji⟩
    | none =>
      cases others with
      | none => rfl
      | some choice => exact (chosen_iff.mp ⟨reaction.symm, customEmoji.symm⟩).symm
  · rintro ⟨rfl, rfl⟩
    rfl

/-- Two users have one key for a message where both are somebody else than its author, with the same
choice. -/
theorem keyOf_eq_iff {asker other : Asker} : keyOf db asker = keyOf db other ↔
    asker = other ∨ asker.2 = other.2 ∧ (db.contents other.2).authorId ≠ some asker.1 ∧
      (db.contents other.2).authorId ≠ some other.1 ∧
        db.userReaction asker.1 other.2 = db.userReaction other.1 other.2 := by
  obtain ⟨user, message⟩ := asker
  obtain ⟨user', message'⟩ := other
  rw [keyOf, keyOf, keyFor, keyFor]
  dsimp only
  split
  case isTrue own =>
      split
      case isTrue own' =>
          rw [cacheKeyReactionsAuthor, cacheKeyReactionsAuthor, CacheKey.author.injEq]
          constructor
          · rintro ⟨rfl, rfl, -⟩
            exact .inl rfl
          · rintro (same | ⟨-, -, notOwn, -⟩)
            · cases same
              exact ⟨rfl, rfl, rfl⟩
            · exact absurd own' notOwn
      case isFalse notOwn' =>
          refine iff_of_false CacheKey.noConfusion ?_
          rintro (same | ⟨rfl, notOwn, -⟩)
          · cases same
            exact notOwn' own
          · exact notOwn own
  case isFalse notOwn =>
      split
      case isTrue own' =>
          refine iff_of_false CacheKey.noConfusion ?_
          rintro (same | ⟨-, -, notOwn', -⟩)
          · cases same
            exact notOwn own'
          · exact notOwn' own'
      case isFalse notOwn' =>
          rw [cacheKeyReactions_inj]
          constructor
          · rintro ⟨rfl, same⟩
            exact .inr ⟨rfl, notOwn, notOwn', same⟩
          · rintro (same | ⟨rfl, -, -, same⟩)
            · cases same
              exact ⟨rfl, rfl⟩
            · exact ⟨rfl, same⟩

/-- The reactions look the same to both users: none of the latest ones that are listed is of
either. -/
def SameFor (db : Db) (userId other messageId : Nat) : Prop :=
  other = userId ∨ (db.contents messageId).canSeeReactionsList = false ∨
    ∀ r ∈ (newest (db.reactionsTo messageId)).take 5, r.userId ≠ userId ∧ r.userId ≠ other

theorem my_eq_iff (db : Db) (unread : Bool) {rows : List MessageReaction} {other : Nat}
    (differ : other ≠ userId) :
    rows.map (·.toTlPeerReaction db other unread) = rows.map (·.toTlPeerReaction db userId unread) ↔
      ∀ r ∈ rows, r.userId ≠ userId ∧ r.userId ≠ other := by
  rw [List.map_inj_left]
  refine forall₂_congr fun r _ => ?_
  constructor
  · intro same
    have my : (r.userId == other) = (r.userId == userId) :=
      congrArg MessagePeerReaction.my same
    constructor
    · rintro rfl
      rw [beq_self_eq_true, beq_iff_eq] at my
      exact differ my.symm
    · rintro rfl
      rw [beq_self_eq_true, eq_comm, beq_iff_eq] at my
      exact differ my
  · rintro ⟨notMine, notOthers⟩
    rw [MessageReaction.toTlPeerReaction, MessageReaction.toTlPeerReaction,
      beq_eq_false_iff_ne.mpr notMine, beq_eq_false_iff_ne.mpr notOthers]

/-- A result for one user is right for another with the same key exactly if the reactions look the
same to both. -/
theorem computed_eq_iff {other : Nat}
    (same : keyOf db (other, messageId) = keyOf db (userId, messageId)) :
    computed db other messageId = computed db userId messageId ↔
      SameFor db userId other messageId := by
  rcases keyOf_eq_iff.mp same with equal | ⟨-, notOthers, notMine, choice⟩
  · cases equal
    exact iff_of_true rfl (.inl rfl)
  · by_cases equal : other = userId
    · cases equal
      exact iff_of_true rfl (.inl rfl)
    · have unread : db.isUnread other messageId = db.isUnread userId messageId := by
        rw [Db.isUnread, Db.isUnread, if_neg notOthers, if_neg notMine]
      dsimp only at choice
      rw [SameFor, or_iff_right equal, computed, computed, choice, unread]
      cases (db.contents messageId).canSeeReactionsList with
      | false => exact iff_of_true rfl (.inl rfl)
      | true =>
        rw [or_iff_right Bool.noConfusion,
          ← my_eq_iff db (db.isUnread userId messageId) equal]
        simp

/-! ### A list of messages -/

/-- What a user is shown of a message where nothing is cached. -/
def fresh (db : Db) (userId messageId : Nat) : Option MessageReactions :=
  if (db.contents messageId).regular then some (computed db userId messageId) else none

/-- The latest reactions to a message. -/
def latest (db : Db) (userId messageId : Nat) : List MessagePeerReaction :=
  ((newest (db.reactionsTo messageId)).take 5).map
    (·.toTlPeerReaction db userId (db.isUnread userId messageId))

theorem recents_computed : (computed db userId messageId).recentReactions =
    if (db.contents messageId).canSeeReactionsList then some (latest db userId messageId)
    else none := rfl

/-- The turn of the loop for a message, whatever the others are. -/
def entryOf (db : Db) (cache : ReactionsCache) (userId messageId : Nat) : Entry :=
  if (db.contents messageId).regular then
    match cache (keyOf db (userId, messageId)) with
    | some cached => .done (some cached)
    | none => .computed messageId (keyOf db (userId, messageId)) (inBulk db userId messageId
        (if (db.contents messageId).canSeeReactionsList && few db messageId then some [] else none))
  else .done none

def fetches (db : Db) (cache : ReactionsCache) (userId messageId : Nat) : Bool :=
  (db.contents messageId).regular && (cache (keyOf db (userId, messageId))).isNone &&
    ((db.contents messageId).canSeeReactionsList && few db messageId)

variable {cache : ReactionsCache}

theorem recentToFetch_entryOf : (entryOf db cache userId messageId).recentToFetch =
    if fetches db cache userId messageId then some messageId else none := by
  rw [entryOf, fetches]
  cases (db.contents messageId).regular with
  | false => rfl
  | true =>
    cases cache (keyOf db (userId, messageId)) with
    | some value => rfl
    | none =>
      cases (db.contents messageId).canSeeReactionsList && few db messageId <;> rfl

/-- The result at the front of a list: a message that comes again leaves its latest reactions to the
last of its results. -/
def frontEntry (db : Db) (cache : ReactionsCache) (userId : Nat)
    (recents : Nat → List MessagePeerReaction) (messageId : Nat) (rest : List Nat) : Entry :=
  if (db.contents messageId).regular then
    match cache (keyOf db (userId, messageId)) with
    | some cached => .done (some cached)
    | none => .computed messageId (keyOf db (userId, messageId)) (inBulk db userId messageId
        (if (db.contents messageId).canSeeReactionsList && few db messageId then
          some (if messageId ∈ rest then [] else recents messageId)
        else none))
  else .done none

theorem any_recentToFetch {rest : List Nat} (asked : fetches db cache userId messageId = true) :
    ((rest.map (entryOf db cache userId)).any fun e => e.recentToFetch == some messageId) =
      decide (messageId ∈ rest) := by
  rw [List.any_map, Bool.eq_iff_iff, List.any_eq_true, decide_eq_true_iff]
  constructor
  · rintro ⟨m, listed, same⟩
    rw [Function.comp_apply, recentToFetch_entryOf, beq_iff_eq] at same
    split at same
    case isTrue _ =>
        cases same
        exact listed
    case isFalse _ => cases same
  · intro again
    refine ⟨messageId, again, ?_⟩
    rw [Function.comp_apply, recentToFetch_entryOf, if_pos asked, beq_self_eq_true]

theorem fill_cons {recents : Nat → List MessagePeerReaction} {rest : List Nat} :
    fill recents ((messageId :: rest).map (entryOf db cache userId)) =
      frontEntry db cache userId recents messageId rest ::
        fill recents (rest.map (entryOf db cache userId)) := by
  rw [List.map_cons, frontEntry, entryOf]
  cases regular : (db.contents messageId).regular with
  | false => rfl
  | true =>
    cases cached : cache (keyOf db (userId, messageId)) with
    | some value => rfl
    | none =>
      cases shown : (db.contents messageId).canSeeReactionsList && few db messageId with
      | false => rfl
      | true =>
        have asked : fetches db cache userId messageId = true := by
          rw [fetches, regular, cached, shown]
          rfl
        rw [if_pos rfl, if_pos rfl, if_pos rfl, fill]
        rw [any_recentToFetch asked]
        by_cases again : messageId ∈ rest
        · rw [decide_eq_true again, if_pos again]
          rfl
        · rw [decide_eq_false again, if_neg again]
          rfl

/-- Nothing is wrong with the result for a message but, perhaps, its latest reactions. -/
def Plain (db : Db) (cache : ReactionsCache) (userId messageId : Nat) : Prop :=
  (db.contents messageId).regular = true →
    match cache (keyOf db (userId, messageId)) with
    | some cached => cached = computed db userId messageId
    | none =>
      ((db.contents messageId).authorId = some userId →
          db.userReaction userId messageId ≠ none) ∧
        ((db.contents messageId).canSeeReactionsList = true → few db messageId = true)

def Shown (db : Db) (cache : ReactionsCache) (userId messageId : Nat) : Prop :=
  (db.contents messageId).regular = true ∧ cache (keyOf db (userId, messageId)) = none ∧
    (db.contents messageId).canSeeReactionsList = true

theorem frontEntry_value_iff {recents : Nat → List MessagePeerReaction} {rest : List Nat} :
    (frontEntry db cache userId recents messageId rest).value = fresh db userId messageId ↔
      Plain db cache userId messageId ∧ (Shown db cache userId messageId →
        (if messageId ∈ rest then [] else recents messageId) = latest db userId messageId) := by
  rw [frontEntry, fresh, Plain, Shown]
  cases (db.contents messageId).regular with
  | false => simp [Entry.value]
  | true =>
    cases cache (keyOf db (userId, messageId)) with
    | some value => simp [Entry.value]
    | none =>
      rw [if_pos rfl, if_pos rfl, Entry.value, Option.some.injEq, inBulk_eq_computed_iff,
        recents_computed]
      cases (db.contents messageId).canSeeReactionsList <;> cases few db messageId <;> simp

/-- A list gives what is wanted exactly if nothing else is wrong, and the latest reactions of each
message go to its only result. -/
theorem fill_eq_iff {recents : Nat → List MessagePeerReaction} {messages : List Nat}
    {wanted : Nat → Option MessageReactions} {plain : Nat → Prop}
    (front : ∀ m rest, (frontEntry db cache userId recents m rest).value = wanted m ↔
      plain m ∧ (Shown db cache userId m →
        (if m ∈ rest then [] else recents m) = latest db userId m)) :
    (fill recents (messages.map (entryOf db cache userId))).map Entry.value =
        messages.map wanted ↔
      (∀ m ∈ messages, plain m) ∧
        ∀ m ∈ messages, Shown db cache userId m →
          recents m = latest db userId m ∧
            (1 < messages.count m → latest db userId m = []) := by
  induction messages with
  | nil => exact iff_of_true rfl ⟨List.forall_mem_nil _, List.forall_mem_nil _⟩
  | cons m rest ih =>
    rw [fill_cons, List.map_cons, List.map_cons, List.cons.injEq, front, ih,
      List.forall_mem_cons, and_and_and_comm]
    refine and_congr_right' ?_
    constructor
    · rintro ⟨first, others⟩ n listed shown
      by_cases later : n ∈ rest
      · obtain ⟨right, again⟩ := others n later shown
        refine ⟨right, fun twice => ?_⟩
        by_cases same : n = m
        · cases same
          rw [← first shown, if_pos later]
        · rw [List.count_cons_of_ne (Ne.symm same)] at twice
          exact again twice
      · obtain rfl := (List.mem_cons.mp listed).resolve_right later
        rw [← first shown, if_neg later, List.count_cons_self,
          List.count_eq_zero_of_not_mem later]
        exact ⟨rfl, fun twice => absurd twice (Nat.lt_irrefl 1)⟩
    · intro each
      refine ⟨fun shown => ?_, fun n listed shown => ?_⟩
      · obtain ⟨right, again⟩ := each m List.mem_cons_self shown
        split
        case isTrue later =>
            rw [List.count_cons_self] at again
            exact (again (Nat.succ_lt_succ (List.count_pos_iff.mpr later))).symm
        case isFalse _ => exact right
      · obtain ⟨right, again⟩ := each n (List.mem_cons_of_mem m listed) shown
        exact ⟨right, fun twice => again (twice.trans_le List.count_le_count_cons)⟩

def fetched (db : Db) (asking : List Nat) : List MessageReaction :=
  newest (db.reactions.rows.filter fun r => asking.contains r.messageId)

def recentsOf (db : Db) (userId : Nat) (asking : List Nat) (messageId : Nat) :
    List MessagePeerReaction :=
  (((fetched db asking).take 5).filter fun r => r.messageId == messageId).map
    (·.toTlPeerReaction db userId (db.isUnread userId messageId))

theorem filter_fetched {asking : List Nat} (asked : messageId ∈ asking) :
    (fetched db asking).filter (fun r => r.messageId == messageId) =
      newest (db.reactionsTo messageId) := by
  rw [fetched, newest, Paging.filter_insertionSort, List.filter_filter, newest, Db.reactionsTo]
  congr 1
  refine List.filter_congr fun r _ => ?_
  by_cases same : r.messageId = messageId
  · rw [same, List.contains_iff_mem.mpr asked, Bool.and_true]
  · rw [beq_eq_false_iff_ne.mpr same, Bool.false_and]

theorem length_newest (rows : List MessageReaction) : (newest rows).length = rows.length :=
  List.length_insertionSort _ _

/-- A list has the latest reactions to a message exactly if none of them is behind the first five of
all. -/
theorem recentsOf_eq_iff {asking : List Nat} (asked : messageId ∈ asking)
    (few : few db messageId = true) :
    recentsOf db userId asking messageId = latest db userId messageId ↔
      ∀ r ∈ (fetched db asking).drop 5, r.messageId ≠ messageId := by
  have parts := List.filter_append (p := fun r => r.messageId == messageId)
    ((fetched db asking).take 5) ((fetched db asking).drop 5)
  have all : (newest (db.reactionsTo messageId)).take 5 = newest (db.reactionsTo messageId) := by
    refine List.take_of_length_le ?_
    rw [length_newest]
    exact of_decide_eq_true few
  rw [List.take_append_drop, filter_fetched asked] at parts
  rw [recentsOf, latest, all, parts]
  constructor
  · intro same r behind here
    have size := congrArg List.length same
    rw [List.length_map, List.length_map, List.length_append] at size
    have none := List.eq_nil_of_length_eq_zero (Nat.left_eq_add.mp size)
    exact absurd (beq_iff_eq.mpr here) (List.filter_eq_nil_iff.mp none r behind)
  · intro ahead
    have none := List.filter_eq_nil_iff.mpr fun r behind =>
      (not_congr beq_iff_eq).mpr (ahead r behind)
    rw [none, List.append_nil]

theorem latest_eq_nil_iff :
    latest db userId messageId = [] ↔ db.reactionsTo messageId = [] := by
  rw [latest, List.map_eq_nil_iff, List.take_eq_nil_iff, ← List.length_eq_zero_iff, length_newest,
    List.length_eq_zero_iff]
  exact or_iff_right (by decide)

/-- A list shows a message that it computes as it is shown alone: an author reacted to it too; and if
its reactions are listed there are five at most, none of them behind the first five of those that
are asked for, and the message comes once, unless there are none. -/
structure FitsAmong (db : Db) (userId : Nat) (messages asking : List Nat) (messageId : Nat) :
    Prop where
  reacted : (db.contents messageId).authorId = some userId →
    db.userReaction userId messageId ≠ none
  few : (db.contents messageId).canSeeReactionsList = true → few db messageId = true
  room : (db.contents messageId).canSeeReactionsList = true →
    ∀ r ∈ (fetched db asking).drop 5, r.messageId ≠ messageId
  once : (db.contents messageId).canSeeReactionsList = true →
    db.reactionsTo messageId ≠ [] → messages.count messageId = 1

theorem fitsAmong_iff {messages asking : List Nat} (listed : messageId ∈ messages)
    (asks : (db.contents messageId).canSeeReactionsList = true → few db messageId = true →
      messageId ∈ asking) :
    (((db.contents messageId).authorId = some userId → db.userReaction userId messageId ≠ none) ∧
        ((db.contents messageId).canSeeReactionsList = true → few db messageId = true)) ∧
      ((db.contents messageId).canSeeReactionsList = true →
        recentsOf db userId asking messageId = latest db userId messageId ∧
          (1 < messages.count messageId → latest db userId messageId = [])) ↔
      FitsAmong db userId messages asking messageId := by
  have counted := List.count_pos_iff.mpr listed
  constructor
  · rintro ⟨⟨reacted, few⟩, recents⟩
    refine ⟨reacted, few, fun shown => ?_, fun shown some => ?_⟩
    · exact (recentsOf_eq_iff (asks shown (few shown)) (few shown)).mp (recents shown).1
    · by_contra twice
      have none := (recents shown).2 (by omega)
      exact some (latest_eq_nil_iff.mp none)
  · rintro ⟨reacted, few, room, once⟩
    refine ⟨⟨reacted, few⟩, fun shown => ⟨?_, fun twice => ?_⟩⟩
    · exact (recentsOf_eq_iff (asks shown (few shown)) (few shown)).mpr (room shown)
    · refine latest_eq_nil_iff.mpr ?_
      by_contra some
      exact absurd (once shown some) (by omega)

theorem entry_eq_entryOf {userReactions : Nat → Option Choice} {notCachedIds : List Nat}
    (known : (db.contents messageId).regular = true →
      userReactions messageId = db.userReaction userId messageId)
    (uncached : (db.contents messageId).regular = true →
      cache (keyOf db (userId, messageId)) = none → notCachedIds.contains messageId = true) :
    entry db userId userReactions notCachedIds messageId
        (keyFor db userId messageId (userReactions messageId))
        (cache (keyFor db userId messageId (userReactions messageId))) =
      entryOf db cache userId messageId := by
  rw [entryOf]
  cases regular : (db.contents messageId).regular with
  | false =>
    unfold entry
    rw [regular]
    rfl
  | true =>
    have key : keyFor db userId messageId (userReactions messageId) =
        keyOf db (userId, messageId) := by
      rw [known regular, keyOf]
    rw [key, if_pos rfl]
    cases cached : cache (keyOf db (userId, messageId)) with
    | some value => exact entry_of_cached regular
    | none => exact entry_of_uncached regular (known regular) (uncached regular cached)

theorem entries_eq {messages : List Nat} {userReactions : Nat → Option Choice}
    (known : ∀ m ∈ messages, (db.contents m).regular = true →
      userReactions m = db.userReaction userId m) :
    ((messages.zip (messages.map fun m => keyFor db userId m (userReactions m))).map fun pair =>
      entry db userId userReactions
        ((messages.zip (messages.map fun m => keyFor db userId m (userReactions m))).filterMap
          fun pair => if (cache pair.2).isNone && (db.contents pair.1).regular then some pair.1
            else none) pair.1 pair.2 (cache pair.2)) =
      messages.map (entryOf db cache userId) := by
  rw [Cache.zip_map_self, List.map_map, List.filterMap_map]
  refine List.map_congr_left fun m listed =>
    entry_eq_entryOf (known m listed) fun regular uncached => ?_
  refine List.contains_iff_mem.mpr (List.mem_filterMap.mpr ⟨m, listed, ?_⟩)
  rw [keyOf, ← known m listed regular] at uncached
  rw [Function.comp_apply, uncached, regular]
  rfl

theorem filterMap_recentToFetch (messages : List Nat) :
    (messages.map (entryOf db cache userId)).filterMap Entry.recentToFetch =
      messages.filter (fetches db cache userId) := by
  rw [List.filterMap_map, ← List.filterMap_eq_filter]
  refine List.filterMap_congr fun m _ => ?_
  rw [Function.comp_apply, recentToFetch_entryOf, Option.guard]

theorem toTlReactionsBulk_eq (messages : List Nat) : toTlReactionsBulk db cache userId messages =
    ((fill (recentsOf db userId (messages.filter (fetches db cache userId)))
        (messages.map (entryOf db cache userId))).map Entry.value,
      cache.multiSet ((fill (recentsOf db userId (messages.filter (fetches db cache userId)))
        (messages.map (entryOf db cache userId))).filterMap Entry.toCache)) := by
  have known : ∀ m ∈ messages, (db.contents m).regular = true →
      (if (messages.filter fun m => (db.contents m).regular).contains m then
        db.userReaction userId m
      else none) = db.userReaction userId m := fun m listed regular =>
    if_pos (List.contains_iff_mem.mpr (List.mem_filter.mpr ⟨listed, regular⟩))
  rw [toTlReactionsBulk, entries_eq known, filterMap_recentToFetch]
  rfl

theorem length_toTlReactionsBulk (messages : List Nat) :
    (toTlReactionsBulk db cache userId messages).1.length = messages.length := by
  rw [toTlReactionsBulk_eq]
  dsimp only
  generalize recentsOf db userId (messages.filter (fetches db cache userId)) = recents
  rw [List.length_map]
  induction messages with
  | nil => rfl
  | cons m rest ih => rw [fill_cons, List.length_cons, List.length_cons, ih]

/-- The message is computed. -/
def uncached (db : Db) (cache : ReactionsCache) (userId messageId : Nat) : Bool :=
  (db.contents messageId).regular && (cache (keyOf db (userId, messageId))).isNone

theorem frontEntry_toCache {recents : Nat → List MessagePeerReaction} {rest : List Nat} :
    (frontEntry db cache userId recents messageId rest).toCache =
      if uncached db cache userId messageId then
        (frontEntry db cache userId recents messageId rest).value.map
          (keyOf db (userId, messageId), ·)
      else none := by
  rw [frontEntry, uncached]
  cases (db.contents messageId).regular with
  | false => rfl
  | true => cases cache (keyOf db (userId, messageId)) <;> rfl

theorem toCache_fill {recents : Nat → List MessagePeerReaction} {messages : List Nat}
    (right : (fill recents (messages.map (entryOf db cache userId))).map Entry.value =
      messages.map (fresh db userId)) :
    (fill recents (messages.map (entryOf db cache userId))).filterMap Entry.toCache =
      (messages.filter (uncached db cache userId)).map fun m =>
        (keyOf db (userId, m), computed db userId m) := by
  induction messages with
  | nil => rfl
  | cons m rest ih =>
    rw [fill_cons, List.map_cons, List.map_cons, List.cons.injEq] at right
    rw [fill_cons, List.filterMap_cons, frontEntry_toCache, right.1, ih right.2,
      List.filter_cons, fresh]
    cases here : uncached db cache userId m with
    | false => rfl
    | true =>
      rw [uncached, Bool.and_eq_true] at here
      rw [if_pos here.1]
      rfl

end

/-! ### Calls -/

/-- A call of `to_tl_reactions` or of `to_tl_reactions_bulk`. -/
inductive Call
  | single (userId messageId : Nat)
  | bulk (userId : Nat) (messages : List Nat)
  deriving DecidableEq, Repr

namespace Call

def userId : Call → Nat
  | single userId _ => userId
  | bulk userId _ => userId

def messages : Call → List Nat
  | single _ messageId => [messageId]
  | bulk _ messages => messages

/-- What the call returns, message by message, and the cache after it. -/
def run (db : Db) (cache : ReactionsCache) : Call → List (Option MessageReactions) × ReactionsCache
  | single userId messageId =>
    ([(toTlReactions db cache userId messageId).1], (toTlReactions db cache userId messageId).2)
  | bulk userId messages => toTlReactionsBulk db cache userId messages

def asked (db : Db) (self : Call) : List Asker :=
  (self.messages.filter fun m => (db.contents m).regular).map (self.userId, ·)

/-- Everything that is returned is what the user would be shown if nothing were cached. -/
def Right (db : Db) (cache : ReactionsCache) (self : Call) : Prop :=
  (self.run db cache).1 = self.messages.map (fresh db self.userId)

end Call

def firstFor (db : Db) (log : List Asker) (userId messageId : Nat) : Option Asker :=
  Cache.firstAsker (keyOf db) log (keyOf db (userId, messageId))

/-- The messages of a list whose latest reactions are looked up: nobody asked for them before, and
there are few. -/
def asking (db : Db) (log : List Asker) (userId : Nat) (messages : List Nat) : List Nat :=
  messages.filter fun m => (db.contents m).regular && (firstFor db log userId m).isNone &&
    ((db.contents m).canSeeReactionsList && few db m)

/-- A list shows a message as it is shown alone: an author reacted to it too; and if its reactions
are listed there are five at most, none of them behind the first five of the list, and the message
comes once, unless there are none. -/
structure FitsInBulk (db : Db) (log : List Asker) (userId : Nat) (messages : List Nat)
    (messageId : Nat) : Prop where
  reacted : (db.contents messageId).authorId = some userId →
    db.userReaction userId messageId ≠ none
  few : (db.contents messageId).canSeeReactionsList = true → few db messageId = true
  room : (db.contents messageId).canSeeReactionsList = true →
    ∀ r ∈ (fetched db (asking db log userId messages)).drop 5, r.messageId ≠ messageId
  once : (db.contents messageId).canSeeReactionsList = true →
    db.reactionsTo messageId ≠ [] → messages.count messageId = 1

/-- Whoever asked first for what the user gets is shown the same; and where nobody did, a list shows
the message as it is shown alone. -/
def Call.FitsFor (db : Db) (log : List Asker) (self : Call) (messageId : Nat) : Prop :=
  match firstFor db log self.userId messageId with
  | some asker => SameFor db self.userId asker.1 messageId
  | none =>
    match self with
    | .single _ _ => True
    | .bulk userId messages => FitsInBulk db log userId messages messageId

def Call.Fits (db : Db) (log : List Asker) (self : Call) : Prop :=
  ∀ m ∈ self.messages, (db.contents m).regular = true → self.FitsFor db log m

section

variable {db : Db} {log : List Asker} {cache : ReactionsCache} {user messageId : Nat}

abbrev Told (db : Db) (log : List Asker) (cache : ReactionsCache) : Prop :=
  Cache.Tells (keyOf db) (computedFor db) log cache

theorem cached_of_told (told : Told db log cache) : cache (keyOf db (user, messageId)) =
    (firstFor db log user messageId).map (computedFor db) :=
  told (keyOf db (user, messageId))

theorem computedFor_first_iff {asker : Asker}
    (first : firstFor db log user messageId = some asker) :
    computedFor db asker = computed db user messageId ↔ SameFor db user asker.1 messageId := by
  have same := Cache.keyOf_firstAsker first
  obtain ⟨other, message⟩ := asker
  obtain rfl : message = messageId := by
    rcases keyOf_eq_iff.mp same with equal | ⟨equal, -⟩
    · exact congrArg Prod.snd equal
    · exact equal
  exact computed_eq_iff same

theorem asking_eq (told : Told db log cache) (messages : List Nat) :
    messages.filter (fetches db cache user) = asking db log user messages := by
  refine List.filter_congr fun m _ => ?_
  rw [fetches, cached_of_told told, Option.isNone_map]

theorem toTlReactions_eq : toTlReactions db cache user messageId =
    if (db.contents messageId).regular then
      (some ((cache (keyOf db (user, messageId))).getD (computed db user messageId)),
        if uncached db cache user messageId then
          cache.set (keyOf db (user, messageId)) (computed db user messageId)
        else cache)
    else (none, cache) := by
  have key : keyFor db user messageId (db.userReaction user messageId) =
      keyOf db (user, messageId) := rfl
  rw [toTlReactions, uncached, key]
  cases (db.contents messageId).regular with
  | false => rfl
  | true =>
    dsimp only
    cases cache (keyOf db (user, messageId)) <;> rfl

theorem frontEntry_alone_iff {recents : Nat → List MessagePeerReaction} {rest : List Nat} :
    (frontEntry db cache user recents messageId rest).value =
        (toTlReactions db cache user messageId).1 ↔
      (uncached db cache user messageId = true →
        ((db.contents messageId).authorId = some user → db.userReaction user messageId ≠ none) ∧
          ((db.contents messageId).canSeeReactionsList = true → few db messageId = true)) ∧
        (Shown db cache user messageId →
          (if messageId ∈ rest then [] else recents messageId) = latest db user messageId) := by
  rw [toTlReactions_eq, frontEntry, uncached, Shown]
  cases (db.contents messageId).regular with
  | false => simp [Entry.value]
  | true =>
    cases cache (keyOf db (user, messageId)) with
    | some value => simp [Entry.value]
    | none =>
      rw [if_pos rfl, if_pos rfl, Option.getD_none, Entry.value, Option.some.injEq,
        inBulk_eq_computed_iff, recents_computed]
      cases (db.contents messageId).canSeeReactionsList <;> cases few db messageId <;> simp

/-- A list shows each message as it is shown alone, with the same cache, exactly if every message
that it computes fits. -/
theorem toTlReactionsBulk_alone_iff {messages : List Nat} :
    (toTlReactionsBulk db cache user messages).1 =
        messages.map (fun m => (toTlReactions db cache user m).1) ↔
      ∀ m ∈ messages, uncached db cache user m = true →
        FitsAmong db user messages (messages.filter (fetches db cache user)) m := by
  rw [toTlReactionsBulk_eq, fill_eq_iff fun m rest => frontEntry_alone_iff, ← forall₂_and]
  refine forall₂_congr fun m listed => ?_
  rw [Shown]
  cases free : uncached db cache user m with
  | false =>
    refine iff_of_true ⟨Bool.noConfusion, ?_⟩ Bool.noConfusion
    rintro ⟨regular, absent, -⟩
    rw [uncached, regular, absent] at free
    cases free
  | true =>
    have both := free
    rw [uncached, Bool.and_eq_true, Option.isNone_iff_eq_none] at both
    rw [forall_prop_of_true rfl, forall_prop_of_true rfl, ← fitsAmong_iff listed fun shown few =>
      List.mem_filter.mpr ⟨listed, by rw [fetches, both.1, both.2, shown, few]; rfl⟩]
    exact and_congr_right' ⟨fun recents shown => recents ⟨both.1, both.2, shown⟩,
      fun recents shown => recents shown.2.2⟩

theorem single_right_iff (told : Told db log cache) :
    (Call.single user messageId).Right db cache ↔ (Call.single user messageId).Fits db log := by
  rw [Call.Right, Call.Fits, Call.run, Call.messages, List.map_singleton, List.singleton_inj,
    List.forall_mem_singleton, toTlReactions_eq, fresh, cached_of_told told]
  cases (db.contents messageId).regular with
  | false => exact iff_of_true rfl fun regular => Bool.noConfusion regular
  | true =>
    rw [if_pos rfl, if_pos rfl, forall_prop_of_true rfl, Call.FitsFor]
    change some _ = _ ↔ match firstFor db log user messageId with
      | some asker => SameFor db user asker.1 messageId
      | none => True
    cases first : firstFor db log user messageId with
    | none => exact iff_of_true rfl trivial
    | some asker => exact Option.some_inj.trans (computedFor_first_iff first)

theorem plain_and_shown_iff (told : Told db log cache) {messages : List Nat}
    (listed : messageId ∈ messages) :
    (Plain db cache user messageId ∧ (Shown db cache user messageId →
        recentsOf db user (asking db log user messages) messageId = latest db user messageId ∧
          (1 < messages.count messageId → latest db user messageId = []))) ↔
      ((db.contents messageId).regular = true →
        (Call.bulk user messages).FitsFor db log messageId) := by
  rw [Plain, Shown, cached_of_told told, Call.FitsFor]
  change _ ↔ (_ → match firstFor db log user messageId with
    | some asker => SameFor db user asker.1 messageId
    | none => FitsInBulk db log user messages messageId)
  cases regular : (db.contents messageId).regular with
  | false => simp
  | true =>
    rw [forall_prop_of_true rfl, forall_prop_of_true rfl]
    cases first : firstFor db log user messageId with
    | some asker =>
      refine Iff.trans ?_ (computedFor_first_iff first)
      exact and_iff_left fun shown => by cases shown.2.1
    | none =>
      have asks : (db.contents messageId).canSeeReactionsList = true →
          few db messageId = true → messageId ∈ asking db log user messages := by
        intro shown few
        refine List.mem_filter.mpr ⟨listed, ?_⟩
        rw [regular, first, shown, few]
        rfl
      have fits : FitsAmong db user messages (asking db log user messages) messageId ↔
          FitsInBulk db log user messages messageId :=
        ⟨fun ⟨reacted, few, room, once⟩ => ⟨reacted, few, room, once⟩,
          fun ⟨reacted, few, room, once⟩ => ⟨reacted, few, room, once⟩⟩
      rw [← fits, ← fitsAmong_iff listed asks]
      exact and_congr_right' ⟨fun recents shown => recents ⟨rfl, rfl, shown⟩,
        fun recents shown => recents shown.2.2⟩

theorem bulk_right_iff (told : Told db log cache) {messages : List Nat} :
    (Call.bulk user messages).Right db cache ↔ (Call.bulk user messages).Fits db log := by
  rw [Call.Right, Call.Fits, Call.run, toTlReactionsBulk_eq]
  dsimp only [Call.messages, Call.userId]
  rw [fill_eq_iff fun m rest => frontEntry_value_iff, ← forall₂_and, asking_eq told]
  exact forall₂_congr fun m listed => plain_and_shown_iff told listed

theorem Call.right_iff (told : Told db log cache) (call : Call) :
    call.Right db cache ↔ call.Fits db log := by
  cases call with
  | single user messageId => exact single_right_iff told
  | bulk user messages => exact bulk_right_iff told

theorem mem_asked {call : Call} {asker : Asker} : asker ∈ call.asked db ↔
    asker.1 = call.userId ∧ asker.2 ∈ call.messages ∧
      (db.contents asker.2).regular = true := by
  rw [Call.asked, List.mem_map]
  constructor
  · rintro ⟨m, listed, rfl⟩
    exact ⟨rfl, List.mem_filter.mp listed⟩
  · rintro ⟨same, listed⟩
    exact ⟨asker.2, List.mem_filter.mpr listed, by rw [← same]⟩

theorem asked_alike {call : Call} : ∀ b ∈ call.asked db, ∀ c ∈ call.asked db,
    keyOf db b = keyOf db c → computedFor db b = computedFor db c := by
  intro b inCall c inCall' same
  have user := (mem_asked.mp inCall).1.trans (mem_asked.mp inCall').1.symm
  rcases keyOf_eq_iff.mp same with rfl | ⟨message, -⟩
  · rfl
  · rw [computedFor, computedFor, user, message]

theorem Call.stored_run {call : Call} (right : call.Right db cache) :
    (call.run db cache).2 =
      cache.multiSet ((call.messages.filter (uncached db cache call.userId)).map fun m =>
        (keyOf db (call.userId, m), computed db call.userId m)) := by
  cases call with
  | single user messageId =>
    rw [Call.run, toTlReactions_eq, Call.messages, Call.userId, List.filter_singleton]
    cases here : uncached db cache user messageId with
    | false => cases (db.contents messageId).regular <;> rfl
    | true =>
      rw [uncached, Bool.and_eq_true] at here
      rw [here.1]
      rfl
  | bulk user messages =>
    rw [Call.Right, Call.run, toTlReactionsBulk_eq] at right
    rw [Call.run, toTlReactionsBulk_eq, toCache_fill right]
    rfl

theorem Call.told_run (told : Told db log cache) {call : Call} (right : call.Right db cache) :
    Told db (log ++ call.asked db) (call.run db cache).2 := by
  rw [Call.stored_run right]
  refine told.multiSet (fun asker asks free => ?_) (fun pair listed => ?_) asked_alike
  · obtain ⟨same, listed, regular⟩ := mem_asked.mp asks
    have here : asker = (call.userId, asker.2) := by rw [← same]
    refine ⟨_, List.mem_map.mpr ⟨asker.2, List.mem_filter.mpr ⟨listed, ?_⟩, rfl⟩, ?_⟩
    · rw [uncached, regular, ← here, free]
      rfl
    · rw [← here]
  · obtain ⟨m, inList, rfl⟩ := List.mem_map.mp listed
    obtain ⟨inCall, free⟩ := List.mem_filter.mp inList
    rw [uncached, Bool.and_eq_true, Option.isNone_iff_eq_none] at free
    exact ⟨free.2, (call.userId, m), mem_asked.mpr ⟨rfl, inCall, free.1⟩, rfl, rfl⟩

end

/-! ### Sequences of calls -/

/-- What the calls return, one after the other. -/
def answers (db : Db) : ReactionsCache → List Call → List (List (Option MessageReactions))
  | _, [] => []
  | cache, call :: calls => (call.run db cache).1 :: answers db (call.run db cache).2 calls

/-- Who asked for what in some calls. -/
def askedIn (db : Db) (calls : List Call) : List Asker := calls.flatMap (Call.asked db)

theorem answers_right_iff {db : Db} {log : List Asker} {cache : ReactionsCache}
    (told : Told db log cache) (calls : List Call) :
    answers db cache calls = calls.map (fun call => call.messages.map (fresh db call.userId)) ↔
      ∀ before call after, calls = before ++ call :: after →
        call.Fits db (log ++ askedIn db before) := by
  induction calls generalizing log cache with
  | nil =>
    refine iff_of_true rfl fun before call after parts => ?_
    exact absurd parts.symm (by simp)
  | cons first calls ih =>
    have front : first.Right db cache ↔ first.Fits db log := first.right_iff told
    rw [answers, List.map_cons, List.cons.injEq]
    change first.Right db cache ∧ _ ↔ _
    constructor
    · rintro ⟨right, later⟩ before call after parts
      have each := (ih (Call.told_run told right)).mp later
      cases before with
      | nil =>
        cases parts
        rw [askedIn, List.flatMap_nil, List.append_nil]
        exact front.mp right
      | cons call' before =>
        cases parts
        have fits := each before call after rfl
        rwa [List.append_assoc] at fits
    · intro each
      have right : first.Right db cache := by
        have fits := each [] first calls rfl
        rw [askedIn, List.flatMap_nil, List.append_nil] at fits
        exact front.mpr fits
      refine ⟨right, (ih (Call.told_run told right)).mpr fun before call after parts => ?_⟩
      have fits := each (first :: before) call after (by rw [parts]; rfl)
      rw [List.append_assoc]
      exact fits

/-- In any sequence of calls, everybody is shown what they would be shown if nothing were cached,
exactly if every call fits the ones before it. -/
theorem viewers_right_iff (db : Db) (calls : List Call) :
    answers db .empty calls =
        calls.map (fun call => call.messages.map fun m =>
          (toTlReactions db .empty call.userId m).1) ↔
      ∀ before call after, calls = before ++ call :: after →
        call.Fits db (askedIn db before) := by
  have alone : ∀ user m, (toTlReactions db .empty user m).1 = fresh db user m := by
    intro user m
    rw [toTlReactions_eq, fresh]
    cases (db.contents m).regular <;> rfl
  have told : Told db [] .empty := Cache.tells_empty
  simp only [alone]
  exact answers_right_iff told calls

private def heart : Choice := ⟨some 5, none, by decide, by decide⟩

private def shared : Db where
  contents := fun _ => ⟨true, some 9, 0, true, false⟩
  emoticon := fun _ => "❤"
  reactions := ⟨[⟨1, 3, heart, 10⟩, ⟨2, 3, heart, 20⟩], by decide⟩

/-- Of two users with one reaction the second one is told that the reaction of the first one is
theirs. -/
theorem reaction_of_another :
    ((answers shared .empty [.single 1 3, .single 2 3]).flatten.map fun answer =>
      (answer.bind (·.recentReactions)).map (·.map fun r => (r.peerId, r.my))) =
        [some [(2, false), (1, true)], some [(2, false), (1, true)]] ∧
      answers shared .empty [.single 1 3, .single 2 3] ≠
        [Call.single 1 3, .single 2 3].map fun call => call.messages.map fun m =>
          (toTlReactions shared .empty call.userId m).1 := by
  decide

end Piltover.Reactions
