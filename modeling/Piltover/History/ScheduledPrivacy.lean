/- source: piltover/app/handlers/messages/history.py, piltover/db/models/peer.py,
     piltover/db/models/read_state.py
   digest: What the scheduled messages of a channel let other users see. -/

import Piltover.History.Queries

set_option autoImplicit false

namespace Piltover.History

open Piltover.Foundation
open Piltover.Foundation.Paging

def scheduledBy (a : Nat) (r : MessageRef) : Bool :=
  r.content.type == .scheduled && r.content.authorId == a

/-- The reference is in one of the two states only. -/
def Differs (db other : Db) (r : MessageRef) : Prop := ¬ (r ∈ db.refs ↔ r ∈ other.refs)

theorem Differs.symm {db other : Db} {r : MessageRef} (differs : Differs db other r) :
    Differs other db r := fun same => differs same.symm

def InChannel (s : Setting) (r : MessageRef) : Prop :=
  ∃ p ∈ s.peers, p.id = r.peerId ∧ p.ownerId = none ∧ ∃ channelId, p.type = .channel channelId

/-- The constraints of the tables. -/
structure Db.Consistent (db : Db) : Prop where
  refId : ∀ r ∈ db.refs, 0 < r.id
  lastOwn : ∀ p ∈ db.peers, ∀ r ∈ db.refs, p.lastMessageId = some r.id → r.peerId = p.id

/-- The two states differ in messages only that `a` has scheduled in channels. -/
structure SameButScheduled (a : Nat) (db other : Db) : Prop where
  setting : other.toSetting = db.toSetting
  scheduled : ∀ r, Differs db other r → scheduledBy a r = true ∧ InChannel db.toSetting r

def Db.synced (db : Db) : Db := db.syncLastMessageBulk (db.peers.rows.map Peer.id)

/-- A user gets the same answers in both states. -/
structure Indistinguishable (b : Nat) (db other : Db) : Prop where
  queries : ∀ scope args, (∀ p, scope = .peer p → p ∈ db.peers) →
    db.getMessagesQueryInternal b scope args = other.getMessagesQueryInternal b scope args
  lastMessage : ∀ p ∈ db.peers, db.lastMessage p.id = other.lastMessage p.id
  dialogs : ∀ args, db.synced.getDialogs b args = other.synced.getDialogs b args
  peerDialogs : ∀ peerIds, db.synced.getPeerDialogs b peerIds = other.synced.getPeerDialogs b peerIds
  unread : ∀ p ∈ db.peers, db.getInOutIdsAndUnread b p = other.getInOutIdsAndUnread b p

def Db.unreadScheduled (db : Db) (a b peerId : Nat) : Nat :=
  (db.refs.rows.filter fun r =>
    scheduledBy a r && r.peerId == peerId && decide (db.readId b peerId < r.id)).length

/-- A scheduled message in one state only has nothing that a filter looks for or is not available,
is not the newest of its peer, and the unread ones are as many in both states. -/
structure Hidden (a b : Nat) (db other : Db) : Prop where
  unfound : ∀ r, Differs db other r → ∀ p ∈ db.peers, p.id = r.peerId →
    db.isAvailable b p r = true → ∀ filter query,
      db.messageFilterToQuery b filter (some p) = some query → query r = false
  older : ∀ r, Differs db other r → ∀ state : Db, state = db ∨ state = other → r ∈ state.refs →
    ∃ s ∈ state.refs, s.peerId = r.peerId ∧ r.id < s.id
  unread : ∀ p ∈ db.peers, db.unreadScheduled a b p.id = other.unreadScheduled a b p.id

section Queries

variable {a b : Nat} {db other : Db}

theorem pageOf_perm {rows others : List MessageRef} {args : Arguments} (same : rows.Perm others)
    (distinct : (rows.map MessageRef.id).Nodup) : pageOf args rows = pageOf args others := by
  have part : ∀ check : MessageRef → Bool, ((rows.filter check).map MessageRef.id).Nodup :=
    fun check => distinct.sublist (List.filter_sublist.map _)
  have newestOf : ∀ check limit, newest MessageRef.id (rows.filter check) limit =
      newest MessageRef.id (others.filter check) limit :=
    fun check limit => newest_perm (same.filter check) (part check)
  have oldestOf : ∀ check limit, oldest MessageRef.id (rows.filter check) limit =
      oldest MessageRef.id (others.filter check) limit :=
    fun check limit => oldest_perm (same.filter check) (part check)
  unfold pageOf
  simp only [newestOf, oldestOf]

theorem found_of_matchesQuery {r : MessageRef} {userId : Nat} {scope : Scope} {args : Arguments}
    {s : Setting} (scheduled : r.content.type = .scheduled) (positive : 0 < r.id)
    (channel : InChannel s r) (known : ∀ p, scope = .peer p → p ∈ s.peers)
    (asked : s.matchesQuery userId scope args r = true) :
    ∃ p ∈ s.peers, p.id = r.peerId ∧ s.isAvailable userId p r = true ∧ ∃ filter query,
      s.messageFilterToQuery userId filter (some p) = some query ∧ query r = true := by
  obtain ⟨owned, listed, named, unowned, -⟩ := channel
  unfold Setting.matchesQuery at asked
  simp only [Bool.and_eq_true] at asked
  obtain ⟨⟨⟨asked, -⟩, -⟩, available⟩ := asked
  have base : s.baseQuery userId scope args r = true := by
    split at asked
    · split at asked
      · exact (Bool.and_eq_true_iff.mp asked).1
      · rw [beq_iff_eq] at asked
        omega
    · exact asked
  cases scope with
  | global =>
    have found : s.peers.get r.peerId = some owned := Table.get_eq_some_iff.mpr ⟨listed, named⟩
    have inScope : s.inScope userId .global r = true := by
      unfold Setting.baseQuery at base
      simp only [Bool.and_eq_true] at base
      exact base.1.1.1.1.1.1
    rw [Setting.inScope, found, Option.any_some, unowned] at inScope
    cases inScope
  | peer p =>
    obtain ⟨same, typed⟩ := typed_of_baseQuery base
    refine ⟨p, known p rfl, same.symm, by simpa [Scope.asPeer] using available, ?_⟩
    exact typed.resolve_left fun other => other scheduled

theorem queries_of_hidden (same : SameButScheduled a db other) (consistent : db.Consistent)
    (consistent' : other.Consistent) (hidden : Hidden a b db other) {scope : Scope}
    {args : Arguments} (known : ∀ p, scope = .peer p → p ∈ db.peers) :
    db.getMessagesQueryInternal b scope args = other.getMessagesQueryInternal b scope args := by
  unfold Db.getMessagesQueryInternal
  rw [same.setting]
  refine pageOf_perm (Table.filter_perm fun r asked => ?_) (db.refs.nodup_filter _)
  by_contra differs
  obtain ⟨scheduled, channel⟩ := same.scheduled r differs
  have type : r.content.type = .scheduled := by
    simp only [scheduledBy, Bool.and_eq_true, beq_iff_eq] at scheduled
    exact scheduled.1
  have positive : 0 < r.id := by
    by_cases here : r ∈ db.refs
    · exact consistent.refId r here
    · have there : r ∈ other.refs := by
        by_contra absent
        exact differs (iff_of_false here absent)
      exact consistent'.refId r there
  obtain ⟨p, listed, named, available, filter, query, made, passes⟩ :=
    found_of_matchesQuery type positive channel known asked
  rw [hidden.unfound r differs p listed named available filter query made] at passes
  cases passes

/-- The search for what a filter looks for, up to a message. -/
def searchUpTo (filter : MessagesFilter) (id : Nat) : Arguments :=
  ⟨id + 1, 0, 0, 1, 0, 0, 0, 0, none, some filter, none, false, false, 0, 0⟩

theorem search_eq_singleton {r : MessageRef} {p : Peer} {filter : MessagesFilter}
    {query : MessageRef → Bool} (here : r ∈ db.refs) (named : p.id = r.peerId)
    (available : db.isAvailable b p r = true)
    (made : db.messageFilterToQuery b filter (some p) = some query) (passes : query r = true) :
    db.getMessagesQueryInternal b (.peer p) (searchUpTo filter r.id) = [r] := by
  have looked : db.filterQuery b (.peer p) (searchUpTo filter r.id) = some query := made
  refine upTo_eq_singleton here ?_ rfl rfl ⟨rfl, rfl, rfl⟩
  unfold Setting.matchesQuery Setting.baseQuery Setting.typeQuery
  rw [looked]
  simp [Setting.inScope, searchUpTo, Setting.rangeQuery, Scope.asPeer, named, available, passes]

theorem unfound_of_queries (same : SameButScheduled a db other)
    (queries : ∀ scope args, (∀ p, scope = .peer p → p ∈ db.peers) →
      db.getMessagesQueryInternal b scope args = other.getMessagesQueryInternal b scope args)
    {r : MessageRef} (differs : Differs db other r) {p : Peer} (listed : p ∈ db.peers)
    (named : p.id = r.peerId) (available : db.isAvailable b p r = true) {filter : MessagesFilter}
    {query : MessageRef → Bool} (made : db.messageFilterToQuery b filter (some p) = some query) :
    query r = false := by
  rw [← Bool.not_eq_true]
  intro passes
  have answers := queries (.peer p) (searchUpTo filter r.id) fun q same => by
    cases same
    exact listed
  -- The answer in the state that has the message is the answer in the other one.
  have found : ∀ state : Db, state.toSetting = db.toSetting → r ∈ state.refs →
      state.getMessagesQueryInternal b (.peer p) (searchUpTo filter r.id) = [r] := by
    intro state setting here
    refine search_eq_singleton here named ?_ ?_ passes
    · rw [setting]
      exact available
    · rw [setting]
      exact made
  have kept : ∀ state : Db,
      state.getMessagesQueryInternal b (.peer p) (searchUpTo filter r.id) = [r] →
        r ∈ state.refs := by
    intro state answer
    have listed : r ∈ state.getMessagesQueryInternal b (.peer p) (searchUpTo filter r.id) := by
      rw [answer]
      exact List.mem_singleton.mpr rfl
    exact (mem_getMessagesQueryInternal listed).1
  apply differs
  constructor
  · intro here
    exact kept other (answers.symm.trans (found db rfl here))
  · intro there
    exact kept db (answers.trans (found other same.setting there))

end Queries

section LastMessages

variable {a b : Nat} {db other : Db}

theorem lastMessage_eq_some_iff {peerId : Nat} {r : MessageRef} :
    db.lastMessage peerId = some r ↔
      r ∈ db.refs ∧ r.peerId = peerId ∧ ∀ s ∈ db.refs, s.peerId = peerId → s.id ≤ r.id := by
  have listed : ∀ s, s ∈ db.refs.rows.filter (fun s => s.peerId == peerId) ↔
      s ∈ db.refs ∧ s.peerId = peerId := fun s => by rw [List.mem_filter, beq_iff_eq]; rfl
  constructor
  · intro last
    unfold Db.lastMessage at last
    have taken := List.mem_of_head? last
    obtain ⟨here, named⟩ := (listed r).mp (mem_of_mem_newest taken)
    refine ⟨here, named, fun s there belongs => ?_⟩
    by_cases also : s ∈ newest MessageRef.id (db.refs.rows.filter fun s => s.peerId == peerId) 1
    · have short : (newest MessageRef.id (db.refs.rows.filter fun s => s.peerId == peerId) 1).length
          ≤ 1 := by
        rw [length_newest]
        exact Nat.min_le_left _ _
      rw [List.head?_eq_some_iff] at last
      obtain ⟨rest, all⟩ := last
      rw [all] at also short
      have none_left : rest = [] := by simpa using short
      rw [none_left, List.mem_singleton] at also
      rw [also]
    · exact key_le_of_mem_newest taken ((listed s).mpr ⟨there, belongs⟩) also
  · rintro ⟨here, named, greatest⟩
    rw [Db.lastMessage, newest_one ((listed r).mpr ⟨here, named⟩) ?_ (db.refs.nodup_filter _)]
    · rfl
    · intro s there
      exact greatest s ((listed s).mp there).1 ((listed s).mp there).2

theorem lastMessage_eq_none_iff {peerId : Nat} :
    db.lastMessage peerId = none ↔ ∀ r ∈ db.refs, r.peerId ≠ peerId := by
  rw [Db.lastMessage, List.head?_eq_none_iff, newest_one_eq_nil_iff, List.filter_eq_nil_iff]
  constructor
  · intro foreign r here named
    exact foreign r here (beq_iff_eq.mpr named)
  · intro foreign r here named
    exact foreign r here (beq_iff_eq.mp named)

private theorem lastMessage_mono
    (older : ∀ r, Differs db other r → ∀ state : Db, state = db ∨ state = other → r ∈ state.refs →
      ∃ s ∈ state.refs, s.peerId = r.peerId ∧ r.id < s.id) {peerId : Nat} {r : MessageRef}
    (last : db.lastMessage peerId = some r) : other.lastMessage peerId = some r := by
  obtain ⟨here, named, greatest⟩ := lastMessage_eq_some_iff.mp last
  have there : r ∈ other.refs := by
    by_contra absent
    have differs : Differs db other r := fun both => absent (both.mp here)
    obtain ⟨s, listed, belongs, newer⟩ := older r differs db (.inl rfl) here
    have upper := greatest s listed (belongs.trans named)
    omega
  cases found : other.lastMessage peerId with
  | none => exact absurd named (lastMessage_eq_none_iff.mp found r there)
  | some s =>
    obtain ⟨listed, belongs, upper⟩ := lastMessage_eq_some_iff.mp found
    have also : s ∈ db.refs := by
      by_contra absent
      have differs : Differs db other s := fun both => absent (both.mpr listed)
      obtain ⟨t, newer, same, later⟩ := older s differs other (.inr rfl) listed
      have bound := upper t newer (same.trans belongs)
      omega
    have below := greatest s also belongs
    have above := upper r there named
    rw [Table.eq_of_key_eq here also (by omega : r.id = s.id)]

theorem lastMessage_of_hidden (hidden : Hidden a b db other) (peerId : Nat) :
    db.lastMessage peerId = other.lastMessage peerId := by
  ext r
  constructor
  · exact lastMessage_mono hidden.older
  · refine lastMessage_mono fun s differs state which listed => ?_
    exact hidden.older s differs.symm state which.symm listed

theorem older_of_lastMessage (same : SameButScheduled a db other)
    (last : ∀ p ∈ db.peers, db.lastMessage p.id = other.lastMessage p.id) {r : MessageRef}
    (differs : Differs db other r) {state : Db} (which : state = db ∨ state = other)
    (here : r ∈ state.refs) : ∃ s ∈ state.refs, s.peerId = r.peerId ∧ r.id < s.id := by
  obtain ⟨-, p, listed, named, -⟩ := same.scheduled r differs
  by_contra newest
  push Not at newest
  have top : state.lastMessage p.id = some r := by
    rw [lastMessage_eq_some_iff, named]
    exact ⟨here, rfl, newest⟩
  have agree := last p listed
  apply differs
  rcases which with rfl | rfl
  · exact iff_of_true here (lastMessage_eq_some_iff.mp (agree ▸ top)).1
  · exact iff_of_true (lastMessage_eq_some_iff.mp (agree.symm ▸ top)).1 here

end LastMessages

section Unread

variable {a b : Nat} {db other : Db}

theorem unreadCount_eq (apart : b ≠ a) (peerId : Nat) :
    db.unreadCount b peerId (db.readId b peerId) = db.unreadScheduled a b peerId +
      (db.refs.rows.filter fun r => !scheduledBy a r && (r.peerId == peerId &&
        decide (db.readId b peerId < r.id) && r.content.authorId != b)).length := by
  unfold Db.unreadCount Db.unreadScheduled
  rw [List.length_eq_length_filter_add (scheduledBy a), List.filter_filter, List.filter_filter]
  congr 2
  refine List.filter_congr fun r _ => ?_
  rw [Bool.eq_iff_iff]
  simp only [scheduledBy, Bool.and_eq_true, beq_iff_eq, bne_iff_ne, decide_eq_true_iff]
  constructor
  · rintro ⟨scheduled, ⟨named, later⟩, -⟩
    exact ⟨⟨scheduled, named⟩, later⟩
  · rintro ⟨⟨scheduled, named⟩, later⟩
    refine ⟨scheduled, ⟨named, later⟩, ?_⟩
    rw [scheduled.2]
    exact apart.symm

theorem readId_eq (same : SameButScheduled a db other) (peerId : Nat) :
    other.readId b peerId = db.readId b peerId := by
  unfold Db.readId
  rw [same.setting]

theorem unreadCount_eq_iff (same : SameButScheduled a db other) (apart : b ≠ a) (peerId : Nat) :
    db.unreadCount b peerId (db.readId b peerId) =
        other.unreadCount b peerId (other.readId b peerId) ↔
      db.unreadScheduled a b peerId = other.unreadScheduled a b peerId := by
  have rest : (db.refs.rows.filter fun r => !scheduledBy a r && (r.peerId == peerId &&
        decide (db.readId b peerId < r.id) && r.content.authorId != b)).length =
      (other.refs.rows.filter fun r => !scheduledBy a r && (r.peerId == peerId &&
        decide (db.readId b peerId < r.id) && r.content.authorId != b)).length := by
    apply List.Perm.length_eq
    refine Table.filter_perm fun r passes => ?_
    by_contra differs
    have scheduled := (same.scheduled r differs).1
    simp [scheduled] at passes
  rw [unreadCount_eq apart, unreadCount_eq apart, readId_eq same, rest]
  omega

theorem unreadReactions_eq (same : SameButScheduled a db other) (apart : b ≠ a) (peerId : Nat) :
    db.unreadReactions b peerId = other.unreadReactions b peerId := by
  apply List.Perm.length_eq
  refine Table.filter_perm fun r passes => ?_
  by_contra differs
  have scheduled := (same.scheduled r differs).1
  simp only [scheduledBy, Bool.and_eq_true, beq_iff_eq] at scheduled passes
  exact apart (passes.1.2.symm.trans scheduled.2)

theorem unreadMentions_eq (same : SameButScheduled a db other) (peer : Peer) :
    other.unreadMentions b peer = db.unreadMentions b peer := by
  unfold Db.unreadMentions
  rw [same.setting]

theorem getInOutIdsAndUnread_eq (same : SameButScheduled a db other) (apart : b ≠ a) {p : Peer}
    (unread : db.unreadScheduled a b p.id = other.unreadScheduled a b p.id) :
    db.getInOutIdsAndUnread b p = other.getInOutIdsAndUnread b p := by
  have counted := (unreadCount_eq_iff same apart p.id).mpr unread
  unfold Db.getInOutIdsAndUnread
  rw [counted, readId_eq same, unreadReactions_eq same apart, unreadMentions_eq same]

end Unread

section Dialogs

variable {a b : Nat} {db other : Db}

theorem lastMessageId_synced {p : Peer} (listed : p ∈ db.synced.peers) :
    ∃ q ∈ db.peers, q.id = p.id ∧ ∀ id, p.lastMessageId = some id →
      (∃ r, db.lastMessage p.id = some r ∧ r.id = id) ∨
        (db.lastMessage p.id = none ∧ q.lastMessageId = some id) := by
  obtain ⟨q, here, made⟩ := List.mem_map.mp (show p ∈ db.synced.peers.rows from listed)
  have asked : (db.peers.rows.map Peer.id).contains q.id = true :=
    List.contains_iff_mem.mpr (List.mem_map_of_mem here)
  rw [if_pos asked] at made
  refine ⟨q, here, ?_⟩
  cases last : db.lastMessage q.id with
  | none =>
    simp only [last] at made
    subst made
    exact ⟨rfl, fun id known => .inr ⟨last, known⟩⟩
  | some r =>
    simp only [last] at made
    subst made
    exact ⟨rfl, fun id known => .inl ⟨r, last, Option.some.inj known⟩⟩

theorem synced_setting (same : SameButScheduled a db other)
    (last : ∀ peerId, db.lastMessage peerId = other.lastMessage peerId) :
    other.synced.toSetting = db.synced.toSetting := by
  obtain ⟨setting, refs⟩ := db
  obtain ⟨setting', refs'⟩ := other
  obtain rfl := same.setting
  unfold Db.synced Db.syncLastMessageBulk
  simp only [last]

theorem lastMessage_get (consistent : db.Consistent) (consistent' : other.Consistent)
    (same : SameButScheduled a db other)
    (last : ∀ peerId, db.lastMessage peerId = other.lastMessage peerId) {p : Peer}
    (listed : p ∈ db.synced.peers) :
    (p.lastMessageId.bind fun id => db.refs.get id) =
      p.lastMessageId.bind fun id => other.refs.get id := by
  obtain ⟨q, here, named, points⟩ := lastMessageId_synced listed
  cases known : p.lastMessageId with
  | none => rfl
  | some id =>
    rw [Option.bind_some, Option.bind_some]
    rcases points id known with ⟨r, top, rfl⟩ | ⟨nothing, stored⟩
    · have inOther := (lastMessage_eq_some_iff.mp ((last p.id).symm.trans top)).1
      rw [Table.get_eq_some_iff.mpr ⟨(lastMessage_eq_some_iff.mp top).1, rfl⟩,
        Table.get_eq_some_iff.mpr ⟨inOther, rfl⟩]
    · have absent : ∀ state : Db, state.Consistent → q ∈ state.peers →
          state.lastMessage p.id = none → state.refs.get id = none := by
        intro state holds member empty
        cases found : state.refs.get id with
        | none => rfl
        | some r =>
          obtain ⟨there, rfl⟩ := Table.get_eq_some_iff.mp found
          have own := holds.lastOwn q member r there stored
          exact absurd (own.trans named) (lastMessage_eq_none_iff.mp empty r there)
      have member : q ∈ other.peers := by
        rw [same.setting]
        exact here
      rw [absent db consistent here nothing,
        absent other consistent' member ((last p.id).symm.trans nothing)]

theorem getInOutIdsAndUnreadBulk_eq {x y : Db} (setting : y.toSetting = x.toSetting)
    {peers : List Peer}
    (unread : ∀ p ∈ peers, x.unreadCount b p.id (x.readId b p.id) =
      y.unreadCount b p.id (y.readId b p.id))
    (reactions : ∀ peerId, x.unreadReactions b peerId = y.unreadReactions b peerId) :
    x.getInOutIdsAndUnreadBulk b peers = y.getInOutIdsAndUnreadBulk b peers := by
  have reads : ∀ peerId, y.readId b peerId = x.readId b peerId := by
    intro peerId
    unfold Db.readId
    rw [setting]
  have mentions : ∀ p, y.unreadMentions b p = x.unreadMentions b p := by
    intro p
    unfold Db.unreadMentions
    rw [setting]
  simp only [reads] at unread
  have counted : ∀ fetch : Bool, ∀ p ∈ peers,
      (if fetch then x.unreadCount b p.id (x.readId b p.id) else 0) =
        if fetch then y.unreadCount b p.id (x.readId b p.id) else 0 := by
    intro fetch p listed
    rw [unread p listed]
  have open_peers : ∀ fetch : Bool,
      (peers.filter fun p =>
        decide (0 < if fetch then x.unreadCount b p.id (x.readId b p.id) else 0)) =
      peers.filter fun p =>
        decide (0 < if fetch then y.unreadCount b p.id (x.readId b p.id) else 0) := by
    intro fetch
    refine List.filter_congr fun p listed => ?_
    rw [counted fetch p listed]
  unfold Db.getInOutIdsAndUnreadBulk
  simp only [reads, mentions, open_peers]
  refine List.map_congr_left fun p listed => ?_
  rw [counted _ p listed, reactions]

/-- What the dialogs of two states with the same setting show depends on the counters and on the
messages that the peers point at. -/
theorem formatDialogs_eq {x y : Db} (setting : y.toSetting = x.toSetting)
    {dialogs : List (Dialog × Peer)}
    (unread : ∀ item ∈ dialogs, x.unreadCount b item.2.id (x.readId b item.2.id) =
      y.unreadCount b item.2.id (y.readId b item.2.id))
    (reactions : ∀ peerId, x.unreadReactions b peerId = y.unreadReactions b peerId)
    (tops : ∀ item ∈ dialogs, (item.2.lastMessageId.bind fun id => x.refs.get id) =
      item.2.lastMessageId.bind fun id => y.refs.get id) :
    x.formatDialogs b dialogs = y.formatDialogs b dialogs := by
  have messages := List.filterMap_congr tops
  have counts : ∀ p ∈ dialogs.map Prod.snd, x.unreadCount b p.id (x.readId b p.id) =
      y.unreadCount b p.id (y.readId b p.id) := by
    intro p listed
    obtain ⟨item, there, rfl⟩ := List.mem_map.mp listed
    exact unread item there
  unfold Db.formatDialogs
  rw [messages, getInOutIdsAndUnreadBulk_eq setting counts reactions]

theorem formatDialogs_of_hidden (same : SameButScheduled a db other) (apart : b ≠ a)
    (consistent : db.Consistent) (consistent' : other.Consistent) (hidden : Hidden a b db other)
    {dialogs : List (Dialog × Peer)} (listed : ∀ item ∈ dialogs, item.2 ∈ db.synced.peers) :
    db.synced.formatDialogs b dialogs = other.synced.formatDialogs b dialogs := by
  have last := lastMessage_of_hidden hidden
  refine formatDialogs_eq (synced_setting same last) ?_ ?_ ?_
  · intro item there
    obtain ⟨q, known, named, -⟩ := lastMessageId_synced (listed item there)
    have unread := hidden.unread q known
    rw [named] at unread
    exact (unreadCount_eq_iff same apart item.2.id).mpr unread
  · intro peerId
    show db.unreadReactions b peerId = other.unreadReactions b peerId
    exact unreadReactions_eq same apart peerId
  · intro item there
    exact lastMessage_get consistent consistent' same last (listed item there)

theorem mem_peers_of_mem_ownDialogs {item : Dialog × Peer} (listed : item ∈ db.ownDialogs b) :
    item.2 ∈ db.peers := by
  unfold Db.ownDialogs at listed
  obtain ⟨d, -, made⟩ := List.mem_filterMap.mp listed
  obtain ⟨p, found, rfl⟩ := Option.map_eq_some_iff.mp made
  exact (Table.get_eq_some_iff.mp found).1

theorem ownDialogs_eq {x y : Db} (setting : y.toSetting = x.toSetting) :
    y.ownDialogs b = x.ownDialogs b := by
  unfold Db.ownDialogs
  rw [setting]

theorem offsets_eq {x y : Db} (setting : y.toSetting = x.toSetting) (args : Db.GetDialogs) :
    args.offsets y = args.offsets x := by
  unfold Db.GetDialogs.offsets
  rw [setting]

theorem getDialogs_of_hidden (same : SameButScheduled a db other) (apart : b ≠ a)
    (consistent : db.Consistent) (consistent' : other.Consistent) (hidden : Hidden a b db other)
    (args : Db.GetDialogs) : db.synced.getDialogs b args = other.synced.getDialogs b args := by
  have setting := synced_setting same (lastMessage_of_hidden hidden)
  unfold Db.getDialogs
  rw [offsets_eq setting, ownDialogs_eq setting]
  refine formatDialogs_of_hidden same apart consistent consistent' hidden fun item taken => ?_
  have sorted := (List.mem_insertionSort _).mp (List.mem_of_mem_take taken)
  exact mem_peers_of_mem_ownDialogs (List.mem_filter.mp sorted).1

theorem getPeerDialogs_of_hidden (same : SameButScheduled a db other) (apart : b ≠ a)
    (consistent : db.Consistent) (consistent' : other.Consistent) (hidden : Hidden a b db other)
    (peerIds : List Nat) :
    db.synced.getPeerDialogs b peerIds = other.synced.getPeerDialogs b peerIds := by
  unfold Db.getPeerDialogs
  rw [ownDialogs_eq (synced_setting same (lastMessage_of_hidden hidden))]
  refine formatDialogs_of_hidden same apart consistent consistent' hidden fun item taken => ?_
  exact mem_peers_of_mem_ownDialogs (List.mem_filter.mp taken).1

end Dialogs

/-- Another user sees nothing of the scheduled messages exactly when they are hidden. -/
theorem indistinguishable_iff {a b : Nat} {db other : Db} (consistent : db.Consistent)
    (consistent' : other.Consistent) (same : SameButScheduled a db other) (apart : b ≠ a) :
    Indistinguishable b db other ↔ Hidden a b db other := by
  constructor
  · intro equal
    refine ⟨?_, ?_, ?_⟩
    · intro r differs p listed named available filter query made
      exact unfound_of_queries same equal.queries differs listed named available made
    · intro r differs state which here
      exact older_of_lastMessage same equal.lastMessage differs which here
    · intro p listed
      have counted := congrArg Db.ReadInfo.unread (equal.unread p listed)
      exact (unreadCount_eq_iff same apart p.id).mp counted
  · intro hidden
    refine ⟨?_, ?_, ?_, ?_, ?_⟩
    · intro scope args known
      exact queries_of_hidden same consistent consistent' hidden known
    · intro p _
      exact lastMessage_of_hidden hidden p.id
    · exact getDialogs_of_hidden same apart consistent consistent' hidden
    · exact getPeerDialogs_of_hidden same apart consistent consistent' hidden
    · intro p listed
      exact getInOutIdsAndUnread_eq same apart (hidden.unread p listed)

section Samples

/-- A supergroup with one peer that all users share. -/
def supergroup : Peer := ⟨41, none, .channel 7, none, none, 0⟩

def supergroupDb (refs : Table MessageRef.id) : Db where
  peers := ⟨[supergroup], by decide⟩
  channels := ⟨[⟨⟨⟨1, 0⟩, 7, false, true, false, false, false, none, false, none, false, 1⟩,
    none, none⟩], by decide⟩
  participants := .empty
  mentions := []
  readStates := [⟨2, 41, 105⟩]
  dialogs := [⟨51, 2, 41, false, 0, true⟩]
  refs := refs

def talk : MessageRef :=
  ⟨105, 41, ⟨205, .regular, 2, "hello".toList, 10, none, false, none⟩, false, none, none⟩

/-- A text that user 1 has scheduled for later. -/
def laterText : MessageRef :=
  ⟨103, 41, ⟨203, .scheduled, 1, "soon".toList, 90, none, false, none⟩, false, none, none⟩

/-- A photo that user 1 has scheduled for later. -/
def laterPhoto : MessageRef :=
  ⟨107, 41, ⟨207, .scheduled, 1, [], 90, some ⟨.photo, none⟩, false, none⟩, false, none, none⟩

theorem supergroupDb_consistent {refs : Table MessageRef.id} (positive : ∀ r ∈ refs, 0 < r.id) :
    (supergroupDb refs).Consistent := by
  refine ⟨positive, fun p listed r _ points => ?_⟩
  obtain rfl := List.mem_singleton.mp listed
  cases points

theorem supergroupDb_same {refs others : Table MessageRef.id}
    (scheduled : ∀ r, ¬ (r ∈ refs ↔ r ∈ others) → scheduledBy 1 r = true ∧ r.peerId = 41) :
    SameButScheduled 1 (supergroupDb refs) (supergroupDb others) := by
  refine ⟨rfl, fun r differs => ?_⟩
  obtain ⟨byOwner, named⟩ := scheduled r differs
  exact ⟨byOwner, supergroup, List.mem_singleton.mpr rfl, named.symm, rfl, 7, rfl⟩

/-- A text older than the last message, which the other user has read past, stays hidden. -/
theorem indistinguishable_iff_laterText :
    Indistinguishable 2 (supergroupDb ⟨[laterText, talk], by decide⟩)
      (supergroupDb ⟨[talk], by decide⟩) := by
  have only : ∀ r, ¬ (r ∈ ([laterText, talk] : List MessageRef) ↔ r ∈ [talk]) → r = laterText := by
    intro r differs
    by_contra other
    simp [other] at differs
  refine (indistinguishable_iff (supergroupDb_consistent ?_) (supergroupDb_consistent ?_)
    (supergroupDb_same fun r differs => ?_) (show 2 ≠ 1 by decide)).mpr ⟨?_, ?_, ?_⟩
  · show ∀ r ∈ [laterText, talk], 0 < r.id
    decide
  · show ∀ r ∈ [talk], 0 < r.id
    decide
  · obtain rfl := only r differs
    decide
  · intro r differs p listed _ _ filter query made
    obtain rfl := only r differs
    obtain rfl := List.mem_singleton.mp listed
    cases filter <;> cases made <;> decide
  · intro r differs state which here
    obtain rfl := only r differs
    rcases which with rfl | rfl
    · exact ⟨talk, List.mem_cons_of_mem _ (List.mem_singleton.mpr rfl), rfl, by decide⟩
    · exact absurd (List.mem_singleton.mp here) (by decide)
  · intro p listed
    obtain rfl := List.mem_singleton.mp listed
    decide

/-- A scheduled photo is found by another user's search for photos, becomes the last message of
the channel and counts as unread. -/
theorem scheduled_photo_seen : ∃ db other : Db, db.Consistent ∧ other.Consistent ∧
    SameButScheduled 1 db other ∧ supergroup ∈ db.peers ∧
    db.getMessagesQueryInternal 2 (.peer supergroup) (searchUpTo .photos 107) = [laterPhoto] ∧
    other.getMessagesQueryInternal 2 (.peer supergroup) (searchUpTo .photos 107) = [] ∧
    db.lastMessage 41 = some laterPhoto ∧ other.lastMessage 41 = some talk ∧
    (db.getInOutIdsAndUnread 2 supergroup).unread = 1 ∧
    (other.getInOutIdsAndUnread 2 supergroup).unread = 0 := by
  refine ⟨supergroupDb ⟨[talk, laterPhoto], by decide⟩, supergroupDb ⟨[talk], by decide⟩,
    supergroupDb_consistent ?_, supergroupDb_consistent ?_, supergroupDb_same fun r differs => ?_,
    List.mem_singleton.mpr rfl, by decide, by decide, by decide, by decide, by decide, by decide⟩
  · show ∀ r ∈ [talk, laterPhoto], 0 < r.id
    decide
  · show ∀ r ∈ [talk], 0 < r.id
    decide
  · have photo : r = laterPhoto := by
      by_contra other
      have same : r ∈ [talk, laterPhoto] ↔ r ∈ [talk] := by simp [other]
      exact differs same
    rw [photo]
    decide

end Samples

end Piltover.History
