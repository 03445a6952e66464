/- source: piltover/app/handlers/messages/chats.py, piltover/app/handlers/messages/invites.py
   digest: The peers, the participants and the counter of a basic group, and what changes them. -/

import Piltover.Chats.Groups

set_option autoImplicit false

namespace Piltover.Chats

open Piltover.Channels (ChatParticipant)
open Piltover.Foundation
open Piltover.Messages

/-- The peers, the participants and the counter of a group agree. -/
structure Balanced (db : GroupDb) (chatId : Nat) : Prop where
  members : ∀ u, u ∈ db.memberIds chatId ↔ u ∈ db.peerOwners chatId
  count : db.participantsCount chatId = (db.memberIds chatId).length

/-- The constraints of the tables. -/
structure Keys (db : GroupDb) : Prop where
  onePeer : ∀ p ∈ db.peers, ∀ q ∈ db.peers, p.ownerId = q.ownerId → p.target = q.target → p = q
  notSelf : ∀ p ∈ db.peers, p.target ≠ .user p.ownerId
  peerChat : ∀ p ∈ db.peers, ∀ chatId, p.target = .chat chatId → (db.chats.get chatId).isSome
  participantChat : ∀ p ∈ db.participants, (db.chats.get p.1).isSome
  refId : ∀ r ∈ db.refs, 0 < r.id

section Frame

structure SameRoll (db after : GroupDb) : Prop extends SameGroups db.toDb after.toDb where
  counts : after.participantsCount = db.participantsCount
  refIds : (∀ r ∈ db.refs, 0 < r.id) → ∀ r ∈ after.refs, 0 < r.id

theorem SameRoll.refl (db : GroupDb) : SameRoll db db := ⟨.refl _, rfl, id⟩

theorem SameRoll.trans {db middle after : GroupDb} (first : SameRoll db middle)
    (second : SameRoll middle after) : SameRoll db after :=
  ⟨first.toSameGroups.trans second.toSameGroups, second.counts.trans first.counts,
    second.refIds ∘ first.refIds⟩

variable {db after : GroupDb} {chatId : Nat}

theorem SameRoll.memberIds (same : SameRoll db after) :
    after.memberIds chatId = db.memberIds chatId := by
  rw [GroupDb.memberIds, GroupDb.memberIds, GroupDb.participantsOf, GroupDb.participantsOf,
    same.participants]

theorem SameRoll.peerOwners (same : SameRoll db after) :
    after.peerOwners chatId = db.peerOwners chatId := by
  rw [GroupDb.peerOwners, GroupDb.peerOwners, GroupDb.peersOf, GroupDb.peersOf, same.peers]

theorem SameRoll.balanced (same : SameRoll db after) (balanced : Balanced db chatId) :
    Balanced after chatId := by
  refine ⟨fun u => ?_, ?_⟩
  · rw [same.memberIds, same.peerOwners]
    exact balanced.members u
  · rw [same.memberIds, same.counts]
    exact balanced.count

theorem SameRoll.keys (same : SameRoll db after) (keys : Keys db) : Keys after := by
  refine ⟨?_, ?_, ?_, ?_, same.refIds keys.refId⟩
  · rw [same.peers]
    exact keys.onePeer
  · rw [same.peers]
    exact keys.notSelf
  · rw [same.peers, same.chats]
    exact keys.peerChat
  · rw [same.participants, same.chats]
    exact keys.participantChat

theorem SameRoll.next {start : GroupDb} {first : Ended GroupDb} {rest : GroupDb → Ended GroupDb}
    (here : SameRoll start first.left) (keeps : ∀ s, SameRoll s (rest s).left) :
    SameRoll start (first.next rest).left :=
  Ended.next_left here fun s reached => reached.trans (keeps s)

theorem updUpdateChatParticipants_sameRoll :
    SameRoll db (db.updUpdateChatParticipants chatId).left := by
  unfold GroupDb.updUpdateChatParticipants
  dsimp only
  split <;> exact ⟨⟨rfl, rfl, rfl⟩, rfl, id⟩

theorem createAndSend_sameRoll {userId : Nat} {peer : Peer} {draft : Draft} :
    SameRoll db (db.createAndSend userId peer chatId draft).left := by
  refine ⟨createForPeer_sameGroups.trans updSendMessage_frame.1, rfl, fun positive r here => ?_⟩
  have kept : (db.createAndSend userId peer chatId draft).left.refs = _ := updSendMessage_frame.2
  rw [kept] at here
  exact createForPeer_refIds positive r here

theorem sendMessageInternal_sameRoll {userId : Nat} {peer : Peer} {draft : Draft} :
    SameRoll db (db.sendMessageInternal userId peer chatId draft).left := by
  unfold GroupDb.sendMessageInternal
  split
  · exact .refl db
  · exact createAndSend_sameRoll

theorem sendService_sameRoll {userId authorId code : Nat} {opposite : Bool} {date : Int} :
    SameRoll db (db.sendService userId chatId authorId code opposite date).left := by
  unfold GroupDb.sendService
  split
  · exact .refl db
  · exact sendMessageInternal_sameRoll

theorem forwardLast_sameRoll {userId targetId : Nat} {fwdLimit : Int} :
    SameRoll db (db.forwardLast userId targetId chatId fwdLimit).left := by
  unfold GroupDb.forwardLast
  split
  · split
    · exact .refl db
    · refine ⟨createRefs_sameGroups.trans updSendMessages_frame.1, rfl, fun positive r here => ?_⟩
      dsimp only [GroupDb.liftEnded] at here
      rw [updSendMessages_frame.2] at here
      exact createRefs_refIds positive r here
  · exact .refl db

theorem sendJoined_sameRoll {userId : Nat} {date : Int} {requested : List Nat} :
    SameRoll db (GroupDb.sendJoined userId chatId date db requested).left := by
  induction requested generalizing db with
  | nil => exact .refl db
  | cons requestedId rest ih =>
    refine SameRoll.next (SameRoll.next sendService_sameRoll fun s => sendService_sameRoll) ?_
    intro s
    exact ih

end Frame

section Rows

variable {db : GroupDb} {chatId other u : Nat}

theorem mem_peerOwners : u ∈ db.peerOwners chatId ↔
    ∃ p ∈ db.peers, p.target = .chat chatId ∧ p.ownerId = u := by
  simp [GroupDb.peerOwners, GroupDb.peersOf, Table.mem_def, and_assoc]

theorem mem_memberIds : u ∈ db.memberIds chatId ↔
    ∃ p ∈ db.participants, p.1 = chatId ∧ p.2.userId = u := by
  simp [GroupDb.memberIds, GroupDb.participantsOf]

theorem peerOwners_createPeer : (db.createPeer u chatId).peerOwners other =
    if other = chatId ∧ u ∉ db.peerOwners chatId then db.peerOwners other ++ [u]
    else db.peerOwners other := by
  unfold GroupDb.createPeer
  by_cases here : u ∈ db.peerOwners chatId
  · rw [if_pos here, if_neg fun h => h.2 here]
  · have rows : (db.peers.insert ⟨db.peers.nextKey, u, .chat chatId, false⟩).rows =
        db.peers.rows ++ [⟨db.peers.nextKey, u, .chat chatId, false⟩] :=
      Table.rows_insert db.peers.get_nextKey
    rw [if_neg here, GroupDb.peerOwners, GroupDb.peersOf, rows]
    by_cases same : other = chatId
    · subst same
      rw [if_pos ⟨rfl, here⟩]
      simp [GroupDb.peerOwners, GroupDb.peersOf]
    · have apart : chatId ≠ other := fun h => same h.symm
      simp [same, apart, GroupDb.peerOwners, GroupDb.peersOf]

theorem memberIds_createPeer : (db.createPeer u chatId).memberIds other = db.memberIds other := by
  unfold GroupDb.createPeer
  split <;> rfl

theorem memberIds_createParticipant {p : ChatParticipant} :
    (db.createParticipant chatId p).memberIds other =
      if other = chatId ∧ p.userId ∉ db.memberIds chatId then db.memberIds other ++ [p.userId]
      else db.memberIds other := by
  unfold GroupDb.createParticipant
  by_cases here : p.userId ∈ db.memberIds chatId
  · rw [if_pos here, if_neg fun h => h.2 here]
  · rw [if_neg here]
    by_cases same : other = chatId
    · subst same
      rw [if_pos ⟨rfl, here⟩]
      simp [GroupDb.memberIds, GroupDb.participantsOf]
    · have apart : chatId ≠ other := fun h => same h.symm
      simp [same, apart, GroupDb.memberIds, GroupDb.participantsOf]

theorem peerOwners_createParticipant {p : ChatParticipant} :
    (db.createParticipant chatId p).peerOwners other = db.peerOwners other := by
  unfold GroupDb.createParticipant
  split <;> rfl

theorem memberIds_enroll {p : ChatParticipant} : (db.enroll chatId p).memberIds other =
    if other = chatId ∧ p.userId ∉ db.memberIds chatId then db.memberIds other ++ [p.userId]
    else db.memberIds other := by
  rw [GroupDb.enroll, memberIds_createParticipant, memberIds_createPeer, memberIds_createPeer]

theorem peerOwners_enroll {p : ChatParticipant} : (db.enroll chatId p).peerOwners other =
    if other = chatId ∧ p.userId ∉ db.peerOwners chatId then db.peerOwners other ++ [p.userId]
    else db.peerOwners other := by
  rw [GroupDb.enroll, peerOwners_createParticipant, peerOwners_createPeer]

theorem Keys.createPeer (keys : Keys db) (there : (db.chats.get chatId).isSome) :
    Keys (db.createPeer u chatId) := by
  unfold GroupDb.createPeer
  split
  · exact keys
  · rename_i absent
    have inserted : ∀ p, p ∈ db.peers.insert ⟨db.peers.nextKey, u, .chat chatId, false⟩ ↔
        p ∈ db.peers ∨ p = ⟨db.peers.nextKey, u, .chat chatId, false⟩ := fun p =>
      Table.mem_insert db.peers.get_nextKey
    refine ⟨fun p listed q there owner target => ?_, fun p listed => ?_,
      fun p listed id target => ?_, keys.participantChat, keys.refId⟩
    · rcases (inserted p).mp listed with old | rfl
      · rcases (inserted q).mp there with older | rfl
        · exact keys.onePeer p old q older owner target
        · exact absurd (mem_peerOwners.mpr ⟨p, old, target, owner⟩) absent
      · rcases (inserted q).mp there with older | rfl
        · exact absurd (mem_peerOwners.mpr ⟨q, older, target.symm, owner.symm⟩) absent
        · rfl
    · rcases (inserted p).mp listed with old | rfl
      · exact keys.notSelf p old
      · simp
    · rcases (inserted p).mp listed with old | rfl
      · exact keys.peerChat p old id target
      · cases target
        exact there

theorem Keys.createParticipant (keys : Keys db) (there : (db.chats.get chatId).isSome)
    {p : ChatParticipant} : Keys (db.createParticipant chatId p) := by
  unfold GroupDb.createParticipant
  split
  · exact keys
  · refine ⟨keys.onePeer, keys.notSelf, keys.peerChat, fun q listed => ?_, keys.refId⟩
    rcases List.mem_append.mp listed with old | new
    · exact keys.participantChat q old
    · obtain rfl := List.mem_singleton.mp new
      exact there

theorem chats_enroll {p : ChatParticipant} : (db.enroll chatId p).chats = db.chats := by
  unfold GroupDb.enroll GroupDb.createParticipant GroupDb.createPeer
  split <;> split <;> rfl

theorem Keys.enroll (keys : Keys db) (there : (db.chats.get chatId).isSome)
    {p : ChatParticipant} : Keys (db.enroll chatId p) := by
  have chats : (db.createPeer p.userId chatId).chats = db.chats := by
    unfold GroupDb.createPeer
    split <;> rfl
  refine (keys.createPeer there).createParticipant ?_
  rw [chats]
  exact there

theorem enroll_of_mem {p : ChatParticipant} (member : p.userId ∈ db.memberIds chatId)
    (owner : p.userId ∈ db.peerOwners chatId) : db.enroll chatId p = db := by
  rw [GroupDb.enroll, GroupDb.createPeer, if_pos owner, GroupDb.createParticipant, if_pos member]

theorem enrollAll_of_mem {ps : List ChatParticipant}
    (members : ∀ p ∈ ps, p.userId ∈ db.memberIds chatId)
    (owners : ∀ p ∈ ps, p.userId ∈ db.peerOwners chatId) :
    ps.foldl (GroupDb.enroll chatId) db = db := by
  induction ps with
  | nil => rfl
  | cons p rest ih =>
    rw [List.foldl_cons, enroll_of_mem (members p List.mem_cons_self) (owners p List.mem_cons_self)]
    exact ih (fun q listed => members q (List.mem_cons_of_mem p listed))
      fun q listed => owners q (List.mem_cons_of_mem p listed)

end Rows

section Commits

variable {db : GroupDb} {chatId other u : Nat}

theorem Balanced.congr {after : GroupDb} (balanced : Balanced db other)
    (members : after.memberIds other = db.memberIds other)
    (owners : after.peerOwners other = db.peerOwners other)
    (counts : after.participantsCount other = db.participantsCount other) :
    Balanced after other := by
  refine ⟨fun v => ?_, ?_⟩
  · rw [members, owners]
    exact balanced.members v
  · rw [members, counts]
    exact balanced.count

/-- The constraints do not speak of the counters and the requests. -/
theorem Keys.congr {after : GroupDb} (keys : Keys db) (same : SameGroups db.toDb after.toDb)
    (refs : after.refs = db.refs) : Keys after := by
  refine ⟨?_, ?_, ?_, ?_, ?_⟩
  · rw [same.peers]
    exact keys.onePeer
  · rw [same.peers]
    exact keys.notSelf
  · rw [same.peers, same.chats]
    exact keys.peerChat
  · rw [same.participants, same.chats]
    exact keys.participantChat
  · rw [refs]
    exact keys.refId

private theorem listed_enrollAll {listed : GroupDb → Nat → List Nat}
    (one : ∀ db p other, listed (GroupDb.enroll chatId db p) other =
      if other = chatId ∧ p.userId ∉ listed db chatId then listed db other ++ [p.userId]
      else listed db other)
    {ps : List ChatParticipant} (distinct : (ps.map (·.userId)).Nodup)
    (fresh : ∀ p ∈ ps, p.userId ∉ listed db chatId) :
    listed (ps.foldl (GroupDb.enroll chatId) db) other =
      if other = chatId then listed db other ++ ps.map (·.userId) else listed db other := by
  induction ps generalizing db with
  | nil => simp
  | cons p rest ih =>
    obtain ⟨apart, distinct⟩ := List.nodup_cons.mp distinct
    have first : p.userId ∉ listed db chatId := fresh p List.mem_cons_self
    have stillFresh : ∀ q ∈ rest, q.userId ∉ listed (db.enroll chatId p) chatId := by
      intro q later
      rw [one, if_pos ⟨rfl, first⟩, List.mem_append, List.mem_singleton]
      rintro (old | same)
      · exact fresh q (List.mem_cons_of_mem p later) old
      · exact apart (List.mem_map.mpr ⟨q, later, same⟩)
    rw [List.foldl_cons, ih distinct stillFresh, one]
    by_cases same : other = chatId
    · subst same
      simp [first]
    · simp [same]

theorem memberIds_enrollAll {ps : List ChatParticipant} (distinct : (ps.map (·.userId)).Nodup)
    (fresh : ∀ p ∈ ps, p.userId ∉ db.memberIds chatId) :
    (ps.foldl (GroupDb.enroll chatId) db).memberIds other =
      if other = chatId then db.memberIds other ++ ps.map (·.userId) else db.memberIds other :=
  listed_enrollAll (fun _ _ _ => memberIds_enroll) distinct fresh

theorem peerOwners_enrollAll {ps : List ChatParticipant} (distinct : (ps.map (·.userId)).Nodup)
    (fresh : ∀ p ∈ ps, p.userId ∉ db.peerOwners chatId) :
    (ps.foldl (GroupDb.enroll chatId) db).peerOwners other =
      if other = chatId then db.peerOwners other ++ ps.map (·.userId)
      else db.peerOwners other :=
  listed_enrollAll (fun _ _ _ => peerOwners_enroll) distinct fresh

theorem enrollAll_frame {ps : List ChatParticipant} :
    (ps.foldl (GroupDb.enroll chatId) db).participantsCount = db.participantsCount ∧
      (ps.foldl (GroupDb.enroll chatId) db).chats = db.chats := by
  induction ps generalizing db with
  | nil => exact ⟨rfl, rfl⟩
  | cons p rest ih =>
    have counts : (db.enroll chatId p).participantsCount = db.participantsCount := by
      unfold GroupDb.enroll GroupDb.createParticipant GroupDb.createPeer
      split <;> split <;> rfl
    rw [List.foldl_cons]
    exact ⟨ih.1.trans counts, ih.2.trans chats_enroll⟩

theorem Keys.enrollAll (keys : Keys db) (there : (db.chats.get chatId).isSome)
    {ps : List ChatParticipant} : Keys (ps.foldl (GroupDb.enroll chatId) db) := by
  induction ps generalizing db with
  | nil => exact keys
  | cons p rest ih =>
    refine ih (keys.enroll there) ?_
    rw [chats_enroll]
    exact there

/-- `add_chat_user` adds one user to everything that is stored. -/
theorem addChatUser_commit_balanced (noPeer : u ∉ db.peerOwners chatId)
    (noRow : u ∉ db.memberIds chatId) (balanced : Balanced db other) :
    Balanced (GroupDb.AddChatUser.commit db chatId u) other := by
  have members : (GroupDb.AddChatUser.commit db chatId u).memberIds other =
      (db.enroll chatId ⟨u, 0, 0, false⟩).memberIds other := rfl
  have owners : (GroupDb.AddChatUser.commit db chatId u).peerOwners other =
      (db.enroll chatId ⟨u, 0, 0, false⟩).peerOwners other := rfl
  have before : ([⟨u, 0, 0, false⟩].foldl (GroupDb.enroll chatId) db).participantsCount =
      db.participantsCount := enrollAll_frame.1
  have counts : (GroupDb.AddChatUser.commit db chatId u).participantsCount =
      Function.update db.participantsCount chatId (db.participantsCount chatId + 1) := by
    rw [← before]
    rfl
  by_cases same : other = chatId
  · subst same
    rw [memberIds_enroll, if_pos ⟨rfl, noRow⟩] at members
    rw [peerOwners_enroll, if_pos ⟨rfl, noPeer⟩] at owners
    refine ⟨fun v => ?_, ?_⟩
    · rw [members, owners, List.mem_append, List.mem_append, balanced.members v]
    · rw [members, counts, Function.update_self, List.length_append, balanced.count]
      rfl
  · refine balanced.congr ?_ ?_ ?_
    · rw [members, memberIds_enroll, if_neg fun h => same h.1]
    · rw [owners, peerOwners_enroll, if_neg fun h => same h.1]
    · rw [counts, Function.update_of_ne same]

/-- The constraints hold, and every group that is not migrated is balanced. -/
structure Sound (db : GroupDb) : Prop extends Keys db where
  balanced : ∀ chat ∈ db.chats, chat.migrated = false → Balanced db chat.id

theorem Sound.sameRoll {after : GroupDb} (sound : Sound db) (same : SameRoll db after) :
    Sound after := by
  refine ⟨same.keys sound.toKeys, ?_⟩
  rw [same.chats]
  intro chat listed here
  exact same.balanced (sound.balanced chat listed here)

private theorem mem_invited {request : GroupDb.CreateChat} {userId id : Nat}
    (invited : id ∈ GroupDb.CreateChat.invitedUserIds db request userId) :
    ∃ p ∈ db.peers, p.ownerId = userId ∧ p.target = .user id := by
  obtain ⟨p, there, made⟩ := List.mem_filterMap.mp invited
  split at made
  · rename_i target
    split at made
    · rename_i chosen
      cases made
      exact ⟨p, there, chosen.1, target⟩
    · cases made
  · cases made

private theorem nodup_invited (keys : Keys db) {request : GroupDb.CreateChat} {userId : Nat} :
    (GroupDb.CreateChat.invitedUserIds db request userId).Nodup := by
  have rows : db.peers.rows.Pairwise (· ≠ ·) := List.Nodup.of_map _ db.peers.unique
  unfold GroupDb.CreateChat.invitedUserIds
  rw [List.Nodup, List.pairwise_filterMap]
  refine List.Pairwise.imp_of_mem (fun {p q} here there apart => ?_) rows
  intro id first id' second same
  subst same
  refine apart ?_
  split at first
  · rename_i target
    split at first
    · rename_i chosen
      cases first
      split at second
      · rename_i target'
        split at second
        · rename_i chosen'
          cases second
          exact keys.onePeer p here q there (chosen.1.trans chosen'.1.symm)
            (target.trans target'.symm)
        · cases second
      · cases second
    · cases first
  · cases first

private theorem nobody_of_unknown (keys : Keys db) (unknown : db.chats.get chatId = none) :
    db.memberIds chatId = [] ∧ db.peerOwners chatId = [] := by
  constructor
  · rw [List.eq_nil_iff_forall_not_mem]
    intro u listed
    obtain ⟨p, there, named, -⟩ := mem_memberIds.mp listed
    have known := keys.participantChat p there
    rw [named, unknown] at known
    cases known
  · rw [List.eq_nil_iff_forall_not_mem]
    intro u listed
    obtain ⟨p, there, target, -⟩ := mem_peerOwners.mp listed
    have known := keys.peerChat p there chatId target
    rw [unknown] at known
    cases known

theorem createChat_commit_sound (sound : Sound db) {userId : Nat} {request : GroupDb.CreateChat} :
    Sound (GroupDb.CreateChat.commit db request userId) := by
  let chatId := db.chats.nextKey
  let invited := GroupDb.CreateChat.invitedUserIds db request userId
  let participants : List ChatParticipant := ⟨userId, 0, creatorRights, false⟩ ::
    invited.map fun id => ⟨id, 0, 0, false⟩
  let opened : GroupDb := { db with chats := db.chats.insert ⟨⟨userId, 0⟩, chatId, false, false⟩ }
  have users : participants.map (·.userId) = userId :: invited := by
    simp [participants, Function.comp_def]
  have distinct : (participants.map (·.userId)).Nodup := by
    rw [users, List.nodup_cons]
    refine ⟨fun self => ?_, nodup_invited sound.toKeys⟩
    obtain ⟨p, there, owner, target⟩ := mem_invited self
    exact sound.notSelf p there (owner ▸ target)
  have unknown : db.chats.get chatId = none := db.chats.get_nextKey
  have nobody := nobody_of_unknown sound.toKeys unknown
  obtain ⟨noRow, noPeer⟩ : opened.memberIds chatId = [] ∧ opened.peerOwners chatId = [] := nobody
  have grows : ∀ id, (db.chats.get id).isSome → (opened.chats.get id).isSome := by
    intro id known
    rw [show opened.chats.get id = _ from Table.get_insert unknown id]
    split
    · rfl
    · exact known
  have keys : Keys opened :=
    ⟨sound.onePeer, sound.notSelf, fun p there id target => grows id (sound.peerChat p there id target),
      fun p there => grows p.1 (sound.participantChat p there), sound.refId⟩
  have here : (opened.chats.get chatId).isSome := by
    rw [show opened.chats.get chatId = _ from Table.get_insert unknown chatId, if_pos rfl]
    rfl
  let after : GroupDb := participants.foldl (GroupDb.enroll chatId) opened
  have members : ∀ other, after.memberIds other =
      if other = chatId then opened.memberIds other ++ participants.map (·.userId)
      else opened.memberIds other := fun other =>
    memberIds_enrollAll distinct fun p _ => by rw [noRow]; exact List.not_mem_nil
  have owners : ∀ other, after.peerOwners other =
      if other = chatId then opened.peerOwners other ++ participants.map (·.userId)
      else opened.peerOwners other := fun other =>
    peerOwners_enrollAll distinct fun p _ => by rw [noPeer]; exact List.not_mem_nil
  have counts : (GroupDb.CreateChat.commit db request userId).participantsCount =
      Function.update db.participantsCount chatId participants.length := by
    show Function.update after.participantsCount chatId _ = _
    rw [enrollAll_frame.1]
  have chats : (GroupDb.CreateChat.commit db request userId).chats = opened.chats :=
    enrollAll_frame.2
  refine ⟨(keys.enrollAll here).congr ⟨rfl, rfl, rfl⟩ rfl, fun chat listed live => ?_⟩
  rw [chats] at listed
  rcases (Table.mem_insert unknown).mp listed with old | rfl
  · have apart : chat.id ≠ chatId := (db.chats.lt_nextKey old).ne
    refine (sound.balanced chat old live).congr ((members chat.id).trans (if_neg apart))
      ((owners chat.id).trans (if_neg apart)) ?_
    rw [counts, Function.update_of_ne apart]
  · have all : after.memberIds chatId = participants.map (·.userId) := by
      rw [members, if_pos rfl, noRow, List.nil_append]
    refine ⟨fun u => ?_, ?_⟩
    · show u ∈ after.memberIds chatId ↔ u ∈ after.peerOwners chatId
      rw [all, owners, if_pos rfl, noPeer, List.nil_append]
    · rw [counts, Function.update_self]
      show (participants.length : Int) = (after.memberIds chatId).length
      rw [all, List.length_map]

end Commits

end Piltover.Chats
