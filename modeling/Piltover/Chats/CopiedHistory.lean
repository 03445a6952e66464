/- source: piltover/app/handlers/messages/chats.py, piltover/app/utils/updates_manager.py,
     piltover/db/models/peer.py
   digest: The history that a new member of a basic group gets: the copies, their order, the
     pointer to the last of them and the updates about them. -/

import Piltover.Chats.Membership

set_option autoImplicit false

namespace Piltover.Chats

open Piltover.Foundation
open Piltover.Foundation.Paging
open Piltover.Messages
open Piltover.Updates (Manager.Push Manager.TLUpdate)

/-- The groups, with what their messages reply to and the last messages of the peers. -/
structure HistoryDb extends GroupDb where
  replyToId : Nat → Option Nat
  lastMessageId : Nat → Option Nat
  lastMessageDate : Nat → Option Int

namespace HistoryDb

/-- The constraints of the tables; a message replies to an earlier one. -/
structure Stored (db : HistoryDb) : Prop extends Keys db.toGroupDb where
  refPeer : ∀ r ∈ db.refs, r.peer ∈ db.peers
  oneRef : ∀ r ∈ db.refs, ∀ s ∈ db.refs, r.peer = s.peer → r.contentId = s.contentId → r = s
  replyEarlier : ∀ id earlier, db.replyToId id = some earlier → earlier < id
  replyStored : ∀ id, (db.replyToId id).isSome → (db.refs.get id).isSome
  lastStored : ∀ id, (db.lastMessageId id).isSome → (db.peers.get id).isSome

variable (db : HistoryDb)

/-- The rows of the groups after a part of a handler. -/
def withGroups (ended : Ended GroupDb) : Ended HistoryDb :=
  ⟨{ db with toGroupDb := ended.left }, ended.raised⟩

/-- The references of a user in a group. -/
def refsOf (userId chatId : Nat) : List MessageRef :=
  db.refs.rows.filter fun r => r.peer.ownerId == userId && r.peer.target == .chat chatId

/-- The ones with a content of type `MessageType.REGULAR`. -/
def regularRefsOf (userId chatId : Nat) : List MessageRef :=
  db.refs.rows.filter fun r =>
    r.peer.ownerId == userId && r.peer.target == .chat chatId &&
      (db.contents.get r.contentId).any fun content => content.type == .regular

def messagesToForward (userId chatId : Nat) (fwdLimit : Int) : List MessageRef :=
  newest MessageRef.id (db.regularRefsOf userId chatId) (min fwdLimit 100).toNat

/-- The row that both queries of `_LAST_MESSAGE_SYNC_SQL` take. -/
def lastRow (peer : Peer) : Option MessageRef :=
  (newest MessageRef.id (db.refs.rows.filter fun r =>
    r.peer == peer && (db.contents.get r.contentId).isSome) 1).head?

def syncLastMessage (peer : Peer) : HistoryDb :=
  match db.lastRow peer with
  | none => db
  | some r =>
    { db with
      lastMessageId := Function.update db.lastMessageId peer.id (some r.id)
      lastMessageDate := Function.update db.lastMessageDate peer.id
        ((db.contents.get r.contentId).map MessageContent.date) }

/-- The copies for a new member; a new row replies to nothing. -/
def createCopies (peer : Peer) (messages : List MessageRef) : HistoryDb × List MessageRef :=
  let created := db.createRefs (messages.map fun r => (peer, r.contentId, r.pinned))
  ({ db with toDb := created.1 }, created.2)

/-- The part of `add_chat_user` under `request.fwd_limit > 0`. -/
def copyHistory (userId targetId chatId : Nat) (fwdLimit : Int) : Ended HistoryDb :=
  if 0 < fwdLimit then
    match db.chatPeer targetId chatId with
    | none => ⟨db, some .other⟩
    | some peer =>
      let (db, messages) := db.createCopies peer (db.messagesToForward userId chatId fwdLimit)
      let db := db.syncLastMessage peer
      db.withGroups (db.liftEnded (db.updSendMessages peer messages))
  else ⟨db, none⟩

open GroupDb (AddChatUser) in
/-- `add_chat_user` up to its service message. -/
def addMember (userId : Nat) (request : AddChatUser) : Ended HistoryDb :=
  let chatId := request.chatId
  match AddChatUser.check db.toGroupDb request userId with
  | .error failure => ⟨db, some failure⟩
  | .ok targetId =>
    if targetId ∈ db.memberIds chatId then ⟨db, some .other⟩
    else
      (db.withGroups ((AddChatUser.commit db.toGroupDb chatId targetId).updUpdateChatParticipants
        chatId)).next fun db => db.copyHistory userId targetId chatId request.fwdLimit

/-! ### What the new member should have -/

def sortedRefs (userId chatId : Nat) : List MessageRef :=
  (db.refsOf userId chatId).insertionSort fun r s => r.id ≤ s.id

def copyOf (userId chatId : Nat) (m : MessageRef) : Option MessageRef :=
  (db.sortedRefs userId chatId).find? fun r => r.contentId == m.contentId

def lastMessagePointer (userId chatId : Nat) : Option Nat :=
  (db.chatPeer userId chatId).bind fun peer => db.lastMessageId peer.id

end HistoryDb

def newMessageId : Manager.TLUpdate → Option Nat
  | .newMessage message _ _ => some message.id
  | _ => none

def newMessageIds (userId : Nat) (pushes : List Manager.Push) : List Nat :=
  (pushes.filter fun push => push.userId == userId).flatMap fun push =>
    push.updates.filterMap newMessageId

/-- The history of a new member keeps the order of the original: `messages` are the ones that were
to be copied, newest first. -/
structure OrderKept (before after : HistoryDb) (targetId chatId : Nat) (messages : List MessageRef) :
    Prop where
  order : (after.sortedRefs targetId chatId).map MessageRef.contentId =
    messages.reverse.map MessageRef.contentId
  pointer : after.lastMessagePointer targetId chatId =
    messages.head?.bind fun m => (after.copyOf targetId chatId m).map MessageRef.id
  replies : ∀ m ∈ messages, ∀ earlier ∈ messages, before.replyToId m.id = some earlier.id →
    ∀ copy ∈ after.copyOf targetId chatId m,
      after.replyToId copy.id = (after.copyOf targetId chatId earlier).map MessageRef.id
  updates : newMessageIds targetId (after.server.pushed.drop before.server.pushed.length) =
    (after.sortedRefs targetId chatId).map MessageRef.id

section Handler

variable {db : HistoryDb} {userId chatId : Nat}

theorem syncLastMessage_frame {peer : Peer} :
    (db.syncLastMessage peer).toGroupDb = db.toGroupDb ∧
    (db.syncLastMessage peer).replyToId = db.replyToId := by
  unfold HistoryDb.syncLastMessage
  split <;> exact ⟨rfl, rfl⟩

theorem map_withGroups {ended : Ended GroupDb} :
    (db.withGroups ended).map HistoryDb.toGroupDb = ended := rfl

/-- The rows of the groups are left as the membership's own model of the copying leaves them. -/
theorem copyHistory_groups {targetId : Nat} {fwdLimit : Int} :
    (db.copyHistory userId targetId chatId fwdLimit).map HistoryDb.toGroupDb =
      db.toGroupDb.forwardLast userId targetId chatId fwdLimit := by
  unfold HistoryDb.copyHistory GroupDb.forwardLast
  by_cases positive : 0 < fwdLimit
  · rw [if_pos positive, if_pos positive]
    cases db.chatPeer targetId chatId with
    | none => rfl
    | some peer =>
      let copied := (db.createCopies peer (db.messagesToForward userId chatId fwdLimit)).1
      have groups : (copied.syncLastMessage peer).toGroupDb = copied.toGroupDb :=
        syncLastMessage_frame.1
      dsimp only [Ended.map, HistoryDb.withGroups]
      rw [groups]
      rfl
  · rw [if_neg positive, if_neg positive]
    rfl

/-- `add_chat_user` adds the member and goes on to its service message. -/
theorem addChatUser_eq {request : GroupDb.AddChatUser} :
    db.toGroupDb.addChatUser userId request =
      ((db.addMember userId request).map HistoryDb.toGroupDb).next fun groups =>
        groups.sendService userId request.chatId userId 5 true request.date := by
  unfold GroupDb.addChatUser HistoryDb.addMember
  cases GroupDb.AddChatUser.check db.toGroupDb request userId with
  | error failure => rfl
  | ok targetId =>
    dsimp only
    split
    · rfl
    · rw [Ended.map_next
        (fun groups => groups.forwardLast userId targetId request.chatId request.fwdLimit)
        fun _ => copyHistory_groups, map_withGroups]

end Handler

section Frame

variable {db : HistoryDb} {userId chatId : Nat}

theorem mem_refsOf {r : MessageRef} : r ∈ db.refsOf userId chatId ↔
    r ∈ db.refs ∧ r.peer.ownerId = userId ∧ r.peer.target = .chat chatId := by
  rw [HistoryDb.refsOf, List.mem_filter, Bool.and_eq_true, beq_iff_eq, beq_iff_eq, Table.mem_def]

theorem mem_messagesToForward {fwdLimit : Int} {m : MessageRef}
    (listed : m ∈ db.messagesToForward userId chatId fwdLimit) :
    m ∈ db.refs ∧ m.peer.ownerId = userId ∧ m.peer.target = .chat chatId ∧
      (db.contents.get m.contentId).isSome := by
  obtain ⟨here, taken⟩ := List.mem_filter.mp (mem_of_mem_newest listed)
  rw [Bool.and_eq_true, Bool.and_eq_true, beq_iff_eq, beq_iff_eq] at taken
  obtain ⟨⟨owner, target⟩, regular⟩ := taken
  refine ⟨here, owner, target, ?_⟩
  cases found : db.contents.get m.contentId with
  | some content => rfl
  | none =>
    rw [found] at regular
    cases regular

theorem nodup_messagesToForward (stored : db.Stored) {fwdLimit : Int} :
    ((db.messagesToForward userId chatId fwdLimit).map MessageRef.contentId).Nodup := by
  have rows : (db.messagesToForward userId chatId fwdLimit).Nodup :=
    .of_map MessageRef.id (nodup_newest
      (db.refs.unique.sublist (List.filter_sublist.map MessageRef.id)) _)
  refine rows.map_on fun r here s there same => ?_
  obtain ⟨hereRow, hereOwner, hereTarget, -⟩ := mem_messagesToForward here
  obtain ⟨thereRow, thereOwner, thereTarget, -⟩ := mem_messagesToForward there
  exact stored.oneRef r hereRow s thereRow
    (stored.onePeer _ (stored.refPeer r hereRow) _ (stored.refPeer s thereRow)
      (hereOwner.trans thereOwner.symm) (hereTarget.trans thereTarget.symm)) same

theorem chatPeer_eq_some {peer : Peer} (found : db.chatPeer userId chatId = some peer) :
    peer ∈ db.peers ∧ peer.ownerId = userId ∧ peer.target = .chat chatId := by
  have owner := List.find?_some found
  obtain ⟨here, target⟩ := List.mem_filter.mp (List.mem_of_find?_eq_some found)
  exact ⟨here, by simpa using owner, by simpa using target⟩

theorem chatPeer_congr {before after : GroupDb} (same : after.peers = before.peers) :
    after.chatPeer userId chatId = before.chatPeer userId chatId := by
  rw [GroupDb.chatPeer, GroupDb.chatPeer, GroupDb.peersOf, GroupDb.peersOf, same]

end Frame

section Copying

structure Copies (before after : HistoryDb) (targetId chatId : Nat)
    (messages copies : List MessageRef) : Prop where
  rows : after.sortedRefs targetId chatId = copies
  contents : copies.map MessageRef.contentId = messages.map MessageRef.contentId
  pointer : after.lastMessagePointer targetId chatId = copies.getLast?.map MessageRef.id
  noReply : ∀ copy ∈ copies, after.replyToId copy.id = none
  updates : newMessageIds targetId (after.server.pushed.drop before.server.pushed.length) =
    copies.map MessageRef.id

variable {db : HistoryDb} {targetId chatId : Nat} {peer : Peer} {messages : List MessageRef}

theorem filter_createCopies {check : MessageRef → Bool}
    (fresh : ∀ r ∈ db.refs, check r = false)
    (taken : ∀ r ∈ (db.createCopies peer messages).2, check r = true) :
    (db.createCopies peer messages).1.refs.rows.filter check = (db.createCopies peer messages).2 := by
  have rows : (db.createCopies peer messages).1.refs.rows =
      db.refs.rows ++ (db.createCopies peer messages).2 := createRefs_rows
  have none_before : db.refs.rows.filter check = [] :=
    List.filter_eq_nil_iff.mpr fun r here => by simp [fresh r here]
  rw [rows, List.filter_append, none_before, List.nil_append, List.filter_eq_self]
  exact taken

theorem peer_of_createCopies {r : MessageRef} (created : r ∈ (db.createCopies peer messages).2) :
    r.peer = peer := by
  have listed : r.peer ∈ (db.createCopies peer messages).2.map MessageRef.peer :=
    List.mem_map_of_mem created
  have peers : (db.createCopies peer messages).2.map MessageRef.peer = messages.map fun _ => peer :=
    createRefs_peers.trans (List.map_map ..)
  rw [peers] at listed
  obtain ⟨-, -, same⟩ := List.mem_map.mp listed
  exact same.symm

theorem contentIds_createCopies : (db.createCopies peer messages).2.map MessageRef.contentId =
    messages.map MessageRef.contentId :=
  createRefs_contentIds.trans (List.map_map ..)

theorem ascending_createCopies (db : HistoryDb) (peer : Peer) (messages : List MessageRef) :
    (db.createCopies peer messages).2.Pairwise fun r s => r.id < s.id :=
  createRefs_ascending.1

theorem lastRow_createCopies (fresh : ∀ r ∈ db.refs, r.peer ≠ peer)
    (known : ∀ m ∈ messages, (db.contents.get m.contentId).isSome) :
    (db.createCopies peer messages).1.lastRow peer =
      (db.createCopies peer messages).2.getLast? := by
  have ascending := ascending_createCopies db peer messages
  have contents : (db.createCopies peer messages).1.contents = db.contents := createRefs_contents
  have listed : ((db.createCopies peer messages).1.refs.rows.filter fun r =>
      r.peer == peer && (db.contents.get r.contentId).isSome) =
        (db.createCopies peer messages).2 :=
    filter_createCopies (fun r here => by simp [fresh r here]) fun r created => by
      have contentId : r.contentId ∈
          (db.createCopies peer messages).2.map MessageRef.contentId := List.mem_map_of_mem created
      rw [contentIds_createCopies] at contentId
      obtain ⟨m, here, same⟩ := List.mem_map.mp contentId
      rw [peer_of_createCopies created, ← same, known m here, beq_self_eq_true, Bool.and_self]
  have distinct : ((db.createCopies peer messages).2.map MessageRef.id).Nodup :=
    List.pairwise_map.mpr (ascending.imp fun less => less.ne)
  rw [HistoryDb.lastRow, contents, listed,
    newest_of_perm distinct (List.reverse_perm _).symm (List.pairwise_reverse.mpr ascending),
    List.head?_take, if_neg one_ne_zero, List.head?_reverse]

theorem newMessageIds_updates (pts : Int) (refs : List MessageRef) :
    (Updates.Manager.sendMessagesUpdates pts (refs.map MessageRef.forManager)).filterMap
      newMessageId = refs.map MessageRef.id := by
  induction refs generalizing pts with
  | nil => rfl
  | cons r rest ih => exact congrArg (r.id :: ·) (ih _)

theorem newMessageIds_updSendMessages {groups : Db} {refs : List MessageRef}
    (sent : (groups.updSendMessages peer refs).raised = none) :
    newMessageIds peer.ownerId ((groups.updSendMessages peer refs).left.server.pushed.drop
      groups.server.pushed.length) = refs.map MessageRef.id := by
  unfold Db.updSendMessages at sent ⊢
  split at sent
  · cases sent
  · rename_i server result announced
    rw [Updates.Manager.Server.sendMessages, if_neg (List.cons_ne_nil _ _)] at announced
    split at announced
    · cases announced
    · rename_i after ptss done
      cases announced
      have pushed := Updates.Manager.announce_pushed done
      have plain : Updates.Manager.ByPeer.anyRaises
          ⟨[(peer.forManager, refs.map MessageRef.forManager)], List.nodup_singleton _⟩ = false := by
        simp [Updates.Manager.ByPeer.anyRaises, MessageRef.forManager]
      dsimp only
      rw [pushed, List.drop_left, plain]
      simp only [List.map_cons, List.map_nil, newMessageIds, Updates.Manager.sendMessagesPart,
        Bool.false_eq_true, if_false, Peer.forManager, beq_self_eq_true, List.filter_cons_of_pos,
        List.filter_nil, List.flatMap_cons, List.flatMap_nil, List.append_nil]
      exact newMessageIds_updates _ refs

theorem syncLastMessage_lastMessageId : (db.syncLastMessage peer).lastMessageId peer.id =
    ((db.lastRow peer).map MessageRef.id).or (db.lastMessageId peer.id) := by
  unfold HistoryDb.syncLastMessage
  cases db.lastRow peer with
  | none => rfl
  | some r => exact Function.update_self peer.id _ _

theorem copyHistory_copies {userId : Nat} {fwdLimit : Int}
    (replyStored : ∀ id, (db.replyToId id).isSome → (db.refs.get id).isSome)
    (found : db.chatPeer targetId chatId = some peer) (fresh : db.refsOf targetId chatId = [])
    (unpointed : db.lastMessageId peer.id = none) (positive : 0 < fwdLimit)
    (done : (db.copyHistory userId targetId chatId fwdLimit).raised = none) :
    ∃ copies, Copies db (db.copyHistory userId targetId chatId fwdLimit).left targetId chatId
      (db.messagesToForward userId chatId fwdLimit) copies := by
  obtain ⟨-, owner, target⟩ := chatPeer_eq_some found
  have noRow : ∀ r ∈ db.refs, r.peer ≠ peer := fun r here same => by
    have listed := mem_refsOf.mpr ⟨here, (congrArg Peer.ownerId same).trans owner,
      (congrArg Peer.target same).trans target⟩
    rw [fresh] at listed
    cases listed
  unfold HistoryDb.copyHistory at done ⊢
  rw [if_pos positive, found] at done ⊢
  dsimp only at done ⊢
  let messages := db.messagesToForward userId chatId fwdLimit
  let copied := (db.createCopies peer messages).1
  let copies := (db.createCopies peer messages).2
  let synced := copied.syncLastMessage peer
  let ended := synced.withGroups (synced.liftEnded (synced.updSendMessages peer copies))
  obtain ⟨groups, replies⟩ : synced.toGroupDb = copied.toGroupDb ∧
    synced.replyToId = copied.replyToId := syncLastMessage_frame
  obtain ⟨same, refs⟩ : SameGroups synced.toDb ended.left.toDb ∧ ended.left.refs = synced.refs :=
    updSendMessages_frame
  have listed : (copied.refs.rows.filter fun r =>
      r.peer.ownerId == targetId && r.peer.target == .chat chatId) = copies :=
    filter_createCopies (fun r here => by
      by_contra taken
      have there : r ∈ db.refsOf targetId chatId := List.mem_filter.mpr ⟨here, by simpa using taken⟩
      rw [fresh] at there
      cases there) fun r created => by
        rw [peer_of_createCopies created, owner, target, beq_self_eq_true, beq_self_eq_true]
        rfl
  refine ⟨copies, ?_, contentIds_createCopies, ?_, fun copy created => ?_, ?_⟩
  · have rows : ended.left.refs = copied.refs := refs.trans (by rw [groups])
    show List.insertionSort _ (ended.left.refs.rows.filter _) = copies
    rw [rows, listed]
    exact List.Pairwise.insertionSort_eq
      ((ascending_createCopies db peer messages).imp fun less => less.le)
  · have peers : ended.left.peers = db.peers :=
      same.peers.trans ((by rw [groups] : synced.peers = copied.peers).trans
        createRefs_sameGroups.peers)
    show ((ended.left.chatPeer targetId chatId).bind fun p => synced.lastMessageId p.id) = _
    rw [chatPeer_congr peers, found, Option.bind_some, syncLastMessage_lastMessageId,
      lastRow_createCopies noRow fun m here => (mem_messagesToForward here).2.2.2]
    show Option.or _ (db.lastMessageId peer.id) = _
    rw [unpointed, Option.or_none]
  · by_contra replied
    have before : (db.replyToId copy.id).isSome := by
      rw [← Option.ne_none_iff_isSome]
      exact fun none => replied ((congrFun replies copy.id).trans none)
    obtain ⟨r, stored⟩ := Option.isSome_iff_exists.mp (replyStored copy.id before)
    obtain ⟨here, same⟩ := Table.get_eq_some_iff.mp stored
    exact absurd same (createRefs_ascending.2 r here copy created).ne
  · have server : synced.server = db.server := by
      rw [groups]
      exact createRefs_server
    have pushed := newMessageIds_updSendMessages done
    rw [server, owner] at pushed
    exact pushed

end Copying

section Adding

variable {db : HistoryDb} {userId targetId : Nat} {request : GroupDb.AddChatUser}

theorem chatPeer_createPeer {groups : GroupDb} {chatId : Nat}
    (absent : targetId ∉ groups.peerOwners chatId) :
    (groups.createPeer targetId chatId).chatPeer targetId chatId =
      some ⟨groups.peers.nextKey, targetId, .chat chatId, false⟩ := by
  have rows : (groups.createPeer targetId chatId).peers.rows =
      groups.peers.rows ++ [⟨groups.peers.nextKey, targetId, .chat chatId, false⟩] := by
    rw [GroupDb.createPeer, if_neg absent]
    exact Table.rows_insert groups.peers.get_nextKey
  have unfound : (groups.peersOf chatId).find? (fun p => p.ownerId == targetId) = none := by
    rw [List.find?_eq_none]
    intro p here owner
    exact absent (List.mem_map.mpr ⟨p, here, by simpa using owner⟩)
  rw [GroupDb.chatPeer, GroupDb.peersOf, rows, List.filter_append, List.find?_append]
  rw [GroupDb.peersOf] at unfound
  rw [unfound]
  simp

/-- What is there when the copying starts: the messages are the ones before, and the peer of the
new member is new. -/
structure Entered (before entered : HistoryDb) (targetId chatId : Nat) : Prop where
  refs : entered.refs = before.refs
  contents : entered.contents = before.contents
  pushed : entered.server.pushed = before.server.pushed
  replyToId : entered.replyToId = before.replyToId
  lastMessageId : entered.lastMessageId = before.lastMessageId
  newPeer : entered.chatPeer targetId chatId =
    some ⟨before.peers.nextKey, targetId, .chat chatId, false⟩

/-- The parts of a handler that leave the messages and what was sent about them alone. -/
structure SameMessages (before after : GroupDb) : Prop where
  refs : after.refs = before.refs
  contents : after.contents = before.contents
  pushed : after.server.pushed = before.server.pushed

theorem SameMessages.trans {before middle after : GroupDb} (first : SameMessages before middle)
    (second : SameMessages middle after) : SameMessages before after :=
  ⟨second.refs.trans first.refs, second.contents.trans first.contents,
    second.pushed.trans first.pushed⟩

theorem enroll_sameMessages {groups : GroupDb} {chatId : Nat} {p : Channels.ChatParticipant} :
    SameMessages groups (groups.enroll chatId p) := by
  unfold GroupDb.enroll GroupDb.createParticipant GroupDb.createPeer
  split <;> split <;> exact ⟨rfl, rfl, rfl⟩

theorem updUpdateChatParticipants_sameMessages {groups : GroupDb} {chatId : Nat} :
    SameMessages groups (groups.updUpdateChatParticipants chatId).left := by
  unfold GroupDb.updUpdateChatParticipants
  dsimp only
  split <;> exact ⟨rfl, rfl, rfl⟩

theorem SameMessages.entered {chatId : Nat} {ended : Ended GroupDb}
    (same : SameMessages db.toGroupDb ended.left)
    (newPeer : ended.left.chatPeer targetId chatId =
      some ⟨db.peers.nextKey, targetId, .chat chatId, false⟩) :
    Entered db (db.withGroups ended).left targetId chatId :=
  ⟨same.refs, same.contents, same.pushed, rfl, rfl, newPeer⟩

theorem entered_commit {chatId : Nat} (absent : targetId ∉ db.peerOwners chatId) :
    Entered db (db.withGroups ((GroupDb.AddChatUser.commit db.toGroupDb chatId targetId
      ).updUpdateChatParticipants chatId)).left targetId chatId := by
  let committed := GroupDb.AddChatUser.commit db.toGroupDb chatId targetId
  have enrolled : SameMessages db.toGroupDb committed := by
    have rows : SameMessages db.toGroupDb (db.enroll chatId ⟨targetId, 0, 0, false⟩) :=
      enroll_sameMessages
    exact ⟨rows.refs, rows.contents, rows.pushed⟩
  have announced : SameMessages committed (committed.updUpdateChatParticipants chatId).left :=
    updUpdateChatParticipants_sameMessages
  have roll : SameRoll committed (committed.updUpdateChatParticipants chatId).left :=
    updUpdateChatParticipants_sameRoll
  have peers : committed.peers = (db.createPeer targetId chatId).peers := by
    show ((db.createPeer targetId chatId).createParticipant chatId _).peers = _
    unfold GroupDb.createParticipant
    split <;> rfl
  have newPeer := (chatPeer_congr (roll.peers.trans peers)).trans (chatPeer_createPeer absent)
  exact (enrolled.trans announced).entered newPeer

theorem Entered.messagesToForward {before entered : HistoryDb} {chatId : Nat} {fwdLimit : Int}
    (now : Entered before entered targetId chatId) :
    entered.messagesToForward userId chatId fwdLimit =
      before.messagesToForward userId chatId fwdLimit := by
  rw [HistoryDb.messagesToForward, HistoryDb.messagesToForward, HistoryDb.regularRefsOf,
    HistoryDb.regularRefsOf, now.refs, now.contents]

theorem addMember_copies (stored : db.Stored) (positive : 0 < request.fwdLimit)
    (checked : GroupDb.AddChatUser.check db.toGroupDb request userId = .ok targetId)
    (done : (db.addMember userId request).raised = none) :
    ∃ copies, Copies db (db.addMember userId request).left targetId request.chatId
      (db.messagesToForward userId request.chatId request.fwdLimit) copies := by
  have absent := (addChatUser_check checked).2
  unfold HistoryDb.addMember at done ⊢
  simp only [checked] at done ⊢
  split at done
  · cases done
  · rename_i noRow
    rw [if_neg noRow]
    have now := entered_commit absent
    revert done now
    generalize db.withGroups _ = first
    intro done now
    unfold Ended.next at done ⊢
    split at done
    · rename_i quiet
      dsimp only
      have fresh : first.left.refsOf targetId request.chatId = [] := by
        rw [HistoryDb.refsOf, now.refs, List.filter_eq_nil_iff]
        intro r here taken
        rw [Bool.and_eq_true, beq_iff_eq, beq_iff_eq] at taken
        exact absent (mem_peerOwners.mpr ⟨r.peer, stored.refPeer r here, taken.2, taken.1⟩)
      have unpointed : first.left.lastMessageId db.peers.nextKey = none := by
        rw [now.lastMessageId, ← Option.not_isSome_iff_eq_none]
        intro pointed
        have there := stored.lastStored _ pointed
        rw [db.peers.get_nextKey] at there
        cases there
      obtain ⟨copies, made⟩ := copyHistory_copies (by
        rw [now.replyToId, now.refs]
        exact stored.replyStored) now.newPeer fresh unpointed positive done
      rw [now.messagesToForward] at made
      refine ⟨copies, made.rows, made.contents, made.pointer, made.noReply, ?_⟩
      rw [← now.pushed]
      exact made.updates
    · rename_i failure failed
      rw [failed] at done
      cases done

end Adding

section Order

variable {db after : HistoryDb} {userId targetId chatId : Nat} {messages copies : List MessageRef}

theorem Copies.ascending_iff (made : Copies db after targetId chatId messages copies)
    (distinct : (messages.map MessageRef.contentId).Nodup)
    (replyEarlier : ∀ id earlier, db.replyToId id = some earlier → earlier < id) :
    OrderKept db after targetId chatId messages ↔ messages.length ≤ 1 := by
  constructor
  · intro kept
    have order := kept.order
    rw [made.rows, made.contents, List.map_reverse] at order
    rw [← List.length_map (f := MessageRef.contentId)]
    exact (reverse_eq_self_iff distinct).mp order.symm
  · intro short
    have order : (messages.map MessageRef.contentId).reverse = messages.map MessageRef.contentId :=
      (reverse_eq_self_iff distinct).mpr (by rwa [List.length_map])
    refine ⟨by rw [made.rows, made.contents, List.map_reverse, order], ?_, ?_,
      by rw [made.rows, made.updates]⟩
    · rw [made.pointer]
      have long : copies.length = messages.length := by
        simpa using congrArg List.length made.contents
      rcases Nat.le_one_iff_eq_zero_or_eq_one.mp short with none | one
      · rw [List.length_eq_zero_iff.mp none, List.length_eq_zero_iff.mp (long.trans none)]
        rfl
      · obtain ⟨m, rfl⟩ := List.length_eq_one_iff.mp one
        obtain ⟨copy, rfl⟩ := List.length_eq_one_iff.mp (long.trans one)
        have content : copy.contentId = m.contentId := (List.cons.inj made.contents).1
        have found : [copy].find? (fun r => r.contentId == m.contentId) = some copy := by
          simp [content]
        rw [List.head?_cons, Option.bind_some, HistoryDb.copyOf, made.rows, found]
        rfl
    · intro m here earlier there replied
      have same : earlier = m := by
        obtain ⟨only, rfl⟩ := List.length_eq_one_iff.mp
          (Nat.le_antisymm short (List.length_pos_of_mem here))
        rw [List.mem_singleton.mp here, List.mem_singleton.mp there]
      rw [same] at replied
      exact absurd (replyEarlier _ _ replied) (Nat.lt_irrefl _)

end Order

section Additions

variable {db : HistoryDb} {userId targetId : Nat} {request : GroupDb.AddChatUser}

theorem length_messagesToForward {chatId : Nat} {fwdLimit : Int} (positive : 0 < fwdLimit) :
    (db.messagesToForward userId chatId fwdLimit).length ≤ 1 ↔
      fwdLimit = 1 ∨ (db.regularRefsOf userId chatId).length ≤ 1 := by
  rw [HistoryDb.messagesToForward, length_newest]
  omega

/-- The history of a new member keeps its order exactly when at most one message is copied. -/
theorem orderKept_iff (stored : db.Stored) (positive : 0 < request.fwdLimit)
    (checked : GroupDb.AddChatUser.check db.toGroupDb request userId = .ok targetId)
    (done : (db.addMember userId request).raised = none) :
    OrderKept db (db.addMember userId request).left targetId request.chatId
        (db.messagesToForward userId request.chatId request.fwdLimit) ↔
      request.fwdLimit = 1 ∨ (db.regularRefsOf userId request.chatId).length ≤ 1 := by
  obtain ⟨copies, made⟩ := addMember_copies stored positive checked done
  rw [made.ascending_iff (nodup_messagesToForward stored) stored.replyEarlier,
    length_messagesToForward positive]

/-- User 1 has written two messages to its group, the second one in reply to the first. -/
def twoMessages : HistoryDb where
  bots := []
  peers := ⟨[⟨11, 1, .chat 1, false⟩, ⟨12, 1, .user 2, false⟩], by decide⟩
  chats := ⟨[⟨⟨1, 0⟩, 1, false, false⟩], by decide⟩
  participants := [(1, ⟨1, 0, creatorRights, false⟩)]
  contents := ⟨[⟨1, .regular, some 1, false, false, 0, none⟩,
    ⟨2, .regular, some 1, false, false, 0, none⟩], by decide⟩
  refs := ⟨[⟨1, ⟨11, 1, .chat 1, false⟩, 1, false, 0⟩, ⟨2, ⟨11, 1, .chat 1, false⟩, 2, false, 0⟩],
    by decide⟩
  mentions := Table.empty
  mediaReads := []
  server := ⟨fun _ => some 1, [], []⟩
  otherPushed := []
  participantsCount := fun _ => 1
  invites := Table.empty
  inviteRequests := []
  mayInvite := fun _ _ => true
  spamBlocked := []
  groupCreationEnabled := true
  basicGroupMemberLimit := 50
  participantsPushed := []
  replyToId := fun id => if id = 2 then some 1 else none
  lastMessageId := fun id => if id = 11 then some 2 else none
  lastMessageDate := fun id => if id = 11 then some 0 else none

private theorem twoMessages_stored : twoMessages.Stored where
  onePeer := by
    show ∀ p ∈ twoMessages.peers.rows, ∀ q ∈ twoMessages.peers.rows, _
    decide
  notSelf := by
    show ∀ p ∈ twoMessages.peers.rows, _
    decide
  peerChat := by
    intro p here chatId target
    have named : ∀ p ∈ twoMessages.peers.rows, p.target = .chat 1 ∨ p.target = .user 2 := by decide
    rcases named p here with group | user
    · cases group.symm.trans target
      rfl
    · cases user.symm.trans target
  participantChat := by decide
  refId := by
    show ∀ r ∈ twoMessages.refs.rows, _
    decide
  refPeer := by
    show ∀ r ∈ twoMessages.refs.rows, r.peer ∈ twoMessages.peers.rows
    decide
  oneRef := by
    show ∀ r ∈ twoMessages.refs.rows, ∀ s ∈ twoMessages.refs.rows, _
    decide
  replyEarlier := by
    intro id earlier replied
    simp only [twoMessages] at replied
    split at replied
    · cases replied
      omega
    · cases replied
  replyStored := by
    intro id replied
    simp only [twoMessages] at replied
    split at replied
    · rename_i second
      rw [second]
      rfl
    · cases replied
  lastStored := by
    intro id pointed
    simp only [twoMessages] at pointed
    split at pointed
    · rename_i own
      rw [own]
      rfl
    · cases pointed

theorem orderKept_iff_twoMessages :
    OrderKept twoMessages (twoMessages.addMember 1 ⟨1, .user 2 true, 1, 1⟩).left 2 1
      (twoMessages.messagesToForward 1 1 1) :=
  (orderKept_iff twoMessages_stored (by decide) (by decide) (by decide)).mpr (.inl rfl)

/-- The copy of the second message is created first, and the pointer is to the first one. -/
theorem twoMessages_reversed : ¬ ∀ (db : HistoryDb) (userId targetId : Nat)
    (request : GroupDb.AddChatUser), db.Stored → 0 < request.fwdLimit →
      GroupDb.AddChatUser.check db.toGroupDb request userId = .ok targetId →
        (db.addMember userId request).raised = none →
          OrderKept db (db.addMember userId request).left targetId request.chatId
            (db.messagesToForward userId request.chatId request.fwdLimit) := by
  intro kept
  have here := (kept twoMessages 1 2 ⟨1, .user 2 true, 2, 1⟩ twoMessages_stored (by decide)
    (by decide) (by decide)).order
  revert here
  decide

end Additions

end Piltover.Chats
