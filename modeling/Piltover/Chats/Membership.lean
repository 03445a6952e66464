/- source: piltover/app/handlers/messages/chats.py, piltover/app/handlers/messages/invites.py,
     piltover/app/handlers/messages/sending.py
   digest: Who is in a basic group, over whole runs. -/

import Piltover.Chats.Rolls
import Piltover.Messages.HistoryDeletion

set_option autoImplicit false

namespace Piltover.Chats

open Piltover.Channels (ChatParticipant)
open Piltover.Foundation
open Piltover.Foundation.Runs
open Piltover.Messages

structure MayAdd (db : GroupDb) (userId : Nat) (request : GroupDb.AddChatUser) (u : Nat) :
    Prop where
  named : userIdFromInput userId request.user = .ok u
  callerPeer : userId ∈ db.peerOwners request.chatId
  permitted : ∃ chat participant, db.chats.get request.chatId = some chat ∧
    db.getParticipantRaise request.chatId userId = .ok participant ∧
    userHasPermission chat participant bannedInviteUsers = true
  room : (db.participantsOf request.chatId).length ≤ db.basicGroupMemberLimit
  allowed : db.mayInvite userId u = true

/-- The membership of a group: what is stored agrees, one who is not a participant gets no
reference and no update of a new message, and can be added. -/
structure Membership (db : GroupDb) (chatId : Nat) : Prop extends Balanced db chatId where
  noReference : ∀ peer ∈ db.peersOf chatId, ∀ userId draft u, u ∉ db.memberIds chatId →
    ∀ r ∈ (db.createAndSend userId peer chatId draft).left.refs, r ∉ db.refs →
      r.peer.ownerId ≠ u
  noUpdate : ∀ peer ∈ db.peersOf chatId, ∀ userId draft u, u ∉ db.memberIds chatId →
    ∃ pushes, (db.createAndSend userId peer chatId draft).left.server.pushed =
      db.server.pushed ++ pushes ∧ ∀ push ∈ pushes, push.userId ≠ u
  addable : ∀ userId request u, request.chatId = chatId → MayAdd db userId request u →
    u ∉ db.memberIds chatId →
      u ∈ (db.addChatUser userId request).left.memberIds chatId ∧
        u ∈ (db.addChatUser userId request).left.peerOwners chatId

/-- Every group that is not migrated has its membership in order. -/
def InOrder (db : GroupDb) : Prop :=
  ∀ chat ∈ db.chats, chat.migrated = false → Membership db chat.id

namespace Event

/-- The request removes nobody, lets nobody in but by `add_chat_user`, and leaves no group. -/
def KeepsRoll (db : GroupDb) : Event → Prop
  | .createChat _ _ | .addChatUser _ _ | .sendMessage _ _ => True
  | .deleteChatUser userId request =>
    ∃ failure, GroupDb.DeleteChatUser.check db request userId = .error failure
  | .importChatInvite userId inviteId now =>
    ∀ invite, GroupDb.ImportChatInvite.check db userId inviteId now = .ok invite →
      invite.requestNeeded = true ∨ db.isFull invite.chatId = true ∨
        userId ∈ db.memberIds invite.chatId
  | .hideJoinRequest userId request =>
    ∀ found, GroupDb.HideJoinRequest.check db request userId = .ok found →
      request.approved = false ∨ db.isFullFor request.chatId found.length = true ∨
        request.requester.fetches = false ∨
        ∀ other ∈ found, other.userId ∈ db.memberIds request.chatId
  | .deleteHistory userId request =>
    ∀ peer chatId, db.fromInputPeerRaise userId request.peerId false = .ok peer →
      peer.target = .chat chatId → request.minDate = 0 ∧ request.maxDate = 0 →
        request.contentIds db.toDb peer = [] ∨ ¬ request.fits db.toDb peer

end Event

section Steps

variable {db : GroupDb} {userId : Nat}

theorem createChat_sound (sound : Sound db) {request : GroupDb.CreateChat} :
    Sound (db.createChat userId request).left := by
  unfold GroupDb.createChat
  dsimp only
  split
  · exact sound
  · exact (createChat_commit_sound sound).sameRoll
      (updUpdateChatParticipants_sameRoll.next fun s => sendService_sameRoll)

theorem addChatUser_check {request : GroupDb.AddChatUser} {u : Nat}
    (checked : GroupDb.AddChatUser.check db request userId = .ok u) :
    (∃ chat, db.chats.get request.chatId = some chat) ∧ u ∉ db.peerOwners request.chatId := by
  unfold GroupDb.AddChatUser.check at checked
  obtain ⟨chat, found, checked⟩ := orRaise_bind_eq_ok.mp checked
  obtain ⟨target, -, checked⟩ := (bind_eq_ok _).mp checked
  obtain ⟨participant, -, checked⟩ := (bind_eq_ok _).mp checked
  obtain ⟨-, checked⟩ := check_bind_eq_ok.mp checked
  obtain ⟨apart, checked⟩ := check_bind_eq_ok.mp checked
  obtain ⟨-, checked⟩ := check_bind_eq_ok.mp checked
  obtain ⟨-, checked⟩ := check_bind_eq_ok.mp checked
  cases checked
  refine ⟨⟨chat, (Option.filter_eq_some_iff.mp found).1⟩, ?_⟩
  simpa using require_eq_ok.mp apart

private theorem addChatUser_sameRoll {request : GroupDb.AddChatUser} {u : Nat}
    (checked : GroupDb.AddChatUser.check db request userId = .ok u)
    (noRow : u ∉ db.memberIds request.chatId) :
    SameRoll (GroupDb.AddChatUser.commit db request.chatId u)
      (db.addChatUser userId request).left := by
  unfold GroupDb.addChatUser
  simp only [checked, if_neg noRow]
  exact (updUpdateChatParticipants_sameRoll.next fun s => forwardLast_sameRoll).next
    fun s => sendService_sameRoll

theorem addChatUser_sound (sound : Sound db) {request : GroupDb.AddChatUser} :
    Sound (db.addChatUser userId request).left := by
  cases checked : GroupDb.AddChatUser.check db request userId with
  | error failure =>
    unfold GroupDb.addChatUser
    simp only [checked]
    exact sound
  | ok u =>
    by_cases row : u ∈ db.memberIds request.chatId
    · unfold GroupDb.addChatUser
      simp only [checked, if_pos row]
      exact sound
    · obtain ⟨⟨chat, found⟩, noPeer⟩ := addChatUser_check checked
      refine Sound.sameRoll ⟨?_, ?_⟩ (addChatUser_sameRoll checked row)
      · have there : (db.chats.get request.chatId).isSome := by
          rw [found]
          rfl
        exact (sound.toKeys.enroll there).congr ⟨rfl, rfl, rfl⟩ rfl
      · intro other listed live
        have chats : (GroupDb.AddChatUser.commit db request.chatId u).chats = db.chats :=
          chats_enroll
        rw [chats] at listed
        exact addChatUser_commit_balanced noPeer row (sound.balanced other listed live)

theorem sendMessage_sound (sound : Sound db) {request : GroupDb.SendMessage} :
    Sound (db.sendMessage userId request).left := by
  unfold GroupDb.sendMessage
  split
  · exact sound
  · exact sound.sameRoll sendMessageInternal_sameRoll

private theorem memberIds_map_left {chatId other : Nat} :
    ({ db with participants := db.participants.map fun p =>
        if p.1 = chatId ∧ p.2.userId = userId then (p.1, { p.2 with left := false }) else p } :
      GroupDb).memberIds other = db.memberIds other := by
  have chat : ∀ p : Nat × ChatParticipant,
      (if p.1 = chatId ∧ p.2.userId = userId then (p.1, { p.2 with left := false }) else p).1 =
        p.1 := fun p => by split <;> rfl
  have user : ∀ p : Nat × ChatParticipant,
      (if p.1 = chatId ∧ p.2.userId = userId then (p.1, { p.2 with left := false })
        else p).2.userId = p.2.userId := fun p => by split <;> rfl
  simp only [GroupDb.memberIds, GroupDb.participantsOf, List.filter_map, Function.comp_def, chat,
    List.map_map, user]

private theorem userJoin_commit_sound (sound : Sound db) {chatId : Nat}
    (member : userId ∈ db.memberIds chatId) (owner : userId ∈ db.peerOwners chatId) :
    Sound (GroupDb.UserJoin.commit db userId chatId) := by
  have peer : db.createPeer userId chatId = db := by
    rw [GroupDb.createPeer, if_pos owner]
  unfold GroupDb.UserJoin.commit
  simp only [peer, if_pos member]
  refine ⟨⟨sound.onePeer, sound.notSelf, sound.peerChat, fun p listed => ?_, sound.refId⟩,
    fun chat listed live => ?_⟩
  · obtain ⟨q, there, rfl⟩ := List.mem_map.mp listed
    have known := sound.participantChat q there
    split <;> exact known
  · exact (sound.balanced chat listed live).congr memberIds_map_left rfl rfl

private theorem importChatInvite_check {inviteId : Nat} {now : Int} {invite : ChatInvite}
    (checked : GroupDb.ImportChatInvite.check db userId inviteId now = .ok invite) :
    ∃ chat, db.chats.get invite.chatId = some chat ∧ chat.migrated = false := by
  unfold GroupDb.ImportChatInvite.check at checked
  obtain ⟨found, -, checked⟩ := orRaise_bind_eq_ok.mp checked
  obtain ⟨-, checked⟩ := check_bind_eq_ok.mp checked
  obtain ⟨chat, here, checked⟩ := orRaise_bind_eq_ok.mp checked
  obtain ⟨valid, checked⟩ := check_bind_eq_ok.mp checked
  obtain ⟨-, checked⟩ := check_bind_eq_ok.mp checked
  cases checked
  have live := require_eq_ok.mp valid
  simp only [Bool.and_eq_true, Bool.not_eq_true'] at live
  exact ⟨chat, here, live.2⟩

theorem Sound.mem_iff (sound : Sound db) {chatId u : Nat} {chat : Chat}
    (found : db.chats.get chatId = some chat) (live : chat.migrated = false) :
    u ∈ db.memberIds chatId ↔ u ∈ db.peerOwners chatId := by
  obtain ⟨listed, rfl⟩ := Table.get_eq_some_iff.mp found
  exact (sound.balanced chat listed live).members u

theorem importChatInvite_sound (sound : Sound db) {inviteId : Nat} {now : Int}
    (keeps : Event.KeepsRoll db (.importChatInvite userId inviteId now)) :
    Sound (db.importChatInvite userId inviteId now).left := by
  unfold GroupDb.importChatInvite
  cases checked : GroupDb.ImportChatInvite.check db userId inviteId now with
  | error failure => exact sound
  | ok invite =>
    by_cases asks : invite.requestNeeded = true
    · simp only [if_pos asks]
      refine sound.sameRoll ?_
      split <;> exact ⟨⟨rfl, rfl, rfl⟩, rfl, id⟩
    · simp only [if_neg asks]
      unfold GroupDb.userJoinChatOrChannel
      by_cases full : db.isFull invite.chatId = true
      · rw [if_pos full]
        exact sound
      · rw [if_neg full]
        have member := ((keeps invite checked).resolve_left asks).resolve_left full
        obtain ⟨chat, found, live⟩ := importChatInvite_check checked
        have joined : Sound (GroupDb.UserJoin.commit db userId invite.chatId) :=
          userJoin_commit_sound sound member ((sound.mem_iff found live).mp member)
        exact joined.sameRoll
          (updUpdateChatParticipants_sameRoll.next fun s => sendService_sameRoll)

private theorem live_of_fromChatId {chatId : Nat} {peer : Peer}
    (found : db.fromChatId userId chatId = some peer) :
    ∃ chat, db.chats.get chatId = some chat ∧ chat.migrated = false := by
  unfold GroupDb.fromChatId at found
  split at found
  · rename_i isOpen
    unfold Db.chatIsOpen at isOpen
    cases here : db.chats.get chatId with
    | none =>
      rw [here] at isOpen
      cases isOpen
    | some chat =>
      have valid : (!chat.deleted && (false || !chat.migrated)) = true := by
        rw [here] at isOpen
        exact isOpen
      simp only [Bool.and_eq_true, Bool.not_eq_true', Bool.false_or] at valid
      exact ⟨chat, rfl, valid.2⟩
  · cases found

theorem hideJoinRequest_sound (sound : Sound db) {request : GroupDb.HideJoinRequest}
    (keeps : Event.KeepsRoll db (.hideJoinRequest userId request)) :
    Sound (db.hideJoinRequest userId request).left := by
  unfold GroupDb.hideJoinRequest
  cases checked : GroupDb.HideJoinRequest.check db request userId with
  | error failure => exact sound
  | ok found =>
    by_cases approved : request.approved = true
    · simp only [if_pos approved]
      have kept := (keeps found checked).resolve_left (by simp [approved])
      unfold GroupDb.addRequestedUsersToChat
      split
      · exact sound
      · split
        · exact sound
        · rename_i some room
          split
          · exact sound
          · rename_i fetches
            rw [List.length_map] at room
            have members := (kept.resolve_left room).resolve_left (by simpa using fetches)
            unfold GroupDb.HideJoinRequest.check at checked
            obtain ⟨peer, here, -⟩ := orRaise_bind_eq_ok.mp checked
            obtain ⟨chat, there, live⟩ := live_of_fromChatId here
            have same : GroupDb.AddRequested.commit db request.chatId
                (found.map ChatInviteRequest.userId) =
                db.deleteRequests request.chatId (found.map ChatInviteRequest.userId) := by
              unfold GroupDb.AddRequested.commit
              rw [enrollAll_of_mem]
              · simpa using members
              · simpa using fun other listed =>
                  (sound.mem_iff there live).mp (members other listed)
            rw [same]
            have removed : SameRoll db
                (db.deleteRequests request.chatId (found.map ChatInviteRequest.userId)) :=
              ⟨⟨rfl, rfl, rfl⟩, rfl, id⟩
            exact sound.sameRoll (removed.trans
              (updUpdateChatParticipants_sameRoll.next fun s => sendJoined_sameRoll))
    · simp only [if_neg approved]
      exact sound.sameRoll ⟨⟨rfl, rfl, rfl⟩, rfl, id⟩

theorem deleteChatUser_sound (sound : Sound db) {request : GroupDb.DeleteChatUser}
    (keeps : Event.KeepsRoll db (.deleteChatUser userId request)) :
    Sound (db.deleteChatUser userId request).left := by
  obtain ⟨failure, refused⟩ := keeps
  unfold GroupDb.deleteChatUser
  simp only [refused]
  exact sound

private theorem deleteHistory_frame {db after : Db} {request : DeleteHistory} {answer : Affected}
    (refId : ∀ r ∈ db.refs, 0 < r.id)
    (stays : ∀ peer chatId, db.fromInputPeerRaise userId request.peerId false = .ok peer →
      peer.target = .chat chatId → request.minDate = 0 ∧ request.maxDate = 0 →
        request.contentIds db peer = [] ∨ ¬ request.fits db peer)
    (done : Messages.deleteHistory db userId request = .ok (after, answer)) :
    SameGroups db after ∧ ∀ r ∈ after.refs, r ∈ db.refs := by
  unfold Messages.deleteHistory at done
  obtain ⟨peer, resolved, done⟩ := (bind_eq_ok _).mp done
  obtain ⟨undated, done⟩ := check_bind_eq_ok.mp done
  rw [require_eq_ok, Bool.and_eq_true, beq_iff_eq, beq_iff_eq] at undated
  dsimp only at done
  split at done
  · obtain ⟨⟨counted, pts⟩, added, done⟩ := (bind_eq_ok _).mp done
    cases done
    unfold Db.addPts at added
    split at added
    · cases added
    · cases added
      exact ⟨⟨rfl, rfl, rfl⟩, fun r here => here⟩
  · rename_i something
    obtain ⟨⟨deleted, pts⟩, announced, done⟩ := (bind_eq_ok _).mp done
    obtain ⟨closed, last, done⟩ := (bind_eq_ok _).mp done
    cases done
    have untouched : after = deleted := by
      unfold closeHistory leaveChat at last
      split at last
      · rename_i fits
        split at last
        · rename_i chatId group
          have more := (stays peer chatId resolved group undated).resolve_left something
          exact absurd ((offsetId_eq_zero_iff refId).mp fits) more
        · cases last
          rfl
      · cases last
        rfl
    subst untouched
    unfold Db.updDeleteMessages at announced
    split at announced
    · cases announced
      exact ⟨⟨rfl, rfl, rfl⟩, fun r here => (mem_deleteContents.mp here).1⟩
    · cases announced

theorem deleteHistory_sound (sound : Sound db) {request : DeleteHistory}
    (keeps : Event.KeepsRoll db (.deleteHistory userId request)) :
    Sound (db.deleteHistory userId request).left := by
  unfold GroupDb.deleteHistory
  cases done : Messages.deleteHistory db.toDb userId request with
  | error failure => exact sound
  | ok result =>
    obtain ⟨after, answer⟩ := result
    obtain ⟨same, fewer⟩ := deleteHistory_frame sound.refId keeps done
    exact sound.sameRoll ⟨same, rfl, fun positive r here => positive r (fewer r here)⟩

theorem step_sound {after : GroupDb} {e : Event} (sound : Sound db) (keeps : e.KeepsRoll db)
    (happens : db.step e = some after) : Sound after := by
  cases happens
  cases e with
  | createChat userId request => exact createChat_sound sound
  | addChatUser userId request => exact addChatUser_sound sound
  | deleteChatUser userId request => exact deleteChatUser_sound sound keeps
  | importChatInvite userId inviteId now => exact importChatInvite_sound sound keeps
  | hideJoinRequest userId request => exact hideJoinRequest_sound sound keeps
  | deleteHistory userId request => exact deleteHistory_sound sound keeps
  | sendMessage userId request => exact sendMessage_sound sound

end Steps

section Runs

variable {db : GroupDb}

private theorem mem_peersOf {chatId : Nat} {peer : Peer} :
    peer ∈ db.peersOf chatId ↔ peer ∈ db.peers ∧ peer.target = .chat chatId := by
  simp [GroupDb.peersOf, Table.mem_def]

private theorem owner_of_created {chatId : Nat} {peer : Peer} (sender : peer ∈ db.peersOf chatId)
    {draft : Draft} {r : MessageRef} (created : r ∈ (db.createForPeer peer chatId draft).2) :
    r.peer.ownerId ∈ db.peerOwners chatId := by
  obtain ⟨here, target⟩ := mem_peersOf.mp sender
  rcases peer_of_createForPeer created with same | ⟨there, other⟩
  · rw [same]
    exact mem_peerOwners.mpr ⟨peer, here, target, rfl⟩
  · exact mem_peerOwners.mpr ⟨r.peer, there, other, rfl⟩

private theorem addChatUser_allowed {userId u : Nat} {request : GroupDb.AddChatUser}
    (may : MayAdd db userId request u) (noPeer : u ∉ db.peerOwners request.chatId) :
    GroupDb.AddChatUser.check db request userId = .ok u := by
  obtain ⟨chat, participant, found, here, permitted⟩ := may.permitted
  have callers : (db.chats.get request.chatId).filter (fun chat =>
      (db.peerOwners chat.id).contains userId) = some chat := by
    obtain ⟨-, named⟩ := Table.get_eq_some_iff.mp found
    rw [found, Option.filter_some, named, List.contains_iff_mem.mpr may.callerPeer]
    rfl
  have apart : (db.peerOwners request.chatId).contains u = false := by simpa using noPeer
  unfold GroupDb.AddChatUser.check
  simp only [callers, may.named, here, permitted, apart, may.room, may.allowed, orRaise, require,
    bind, Except.bind, Bool.not_false, decide_true, ↓reduceIte]
  rfl

theorem membership_of_balanced {chatId : Nat} (balanced : Balanced db chatId) :
    Membership db chatId := by
  refine ⟨balanced, ?_, ?_, ?_⟩
  · intro peer sender userId draft u absent r here new owner
    have kept : (db.createAndSend userId peer chatId draft).left.refs = _ := updSendMessage_frame.2
    rw [kept] at here
    have created := (mem_createForPeer.mp here).resolve_left new
    exact absent ((balanced.members u).mpr (owner ▸ owner_of_created sender created))
  · intro peer sender userId draft u absent
    obtain ⟨pushes, pushed, owners⟩ :
        ∃ pushes, (db.createAndSend userId peer chatId draft).left.server.pushed = _ ++ pushes ∧ _ :=
      updSendMessage_pushed
    rw [createForPeer_server] at pushed
    refine ⟨pushes, pushed, fun push listed same => ?_⟩
    obtain ⟨r, created, owner⟩ := owners push listed
    exact absent ((balanced.members u).mpr (same ▸ owner ▸ owner_of_created sender created))
  · rintro userId request u rfl may absent
    have noPeer : u ∉ db.peerOwners request.chatId := fun there =>
      absent ((balanced.members u).mpr there)
    have same := addChatUser_sameRoll (addChatUser_allowed may noPeer) absent
    have members : (GroupDb.AddChatUser.commit db request.chatId u).memberIds request.chatId =
        (db.enroll request.chatId ⟨u, 0, 0, false⟩).memberIds request.chatId := rfl
    have owners : (GroupDb.AddChatUser.commit db request.chatId u).peerOwners request.chatId =
        (db.enroll request.chatId ⟨u, 0, 0, false⟩).peerOwners request.chatId := rfl
    rw [same.memberIds, same.peerOwners, members, owners, memberIds_enroll, peerOwners_enroll,
      if_pos ⟨rfl, absent⟩, if_pos ⟨rfl, noPeer⟩]
    exact ⟨List.mem_append_right _ List.mem_cons_self, List.mem_append_right _ List.mem_cons_self⟩

/-- While nobody is removed, leaves or joins but through `add_chat_user`, every group that is not
migrated has its membership in order. -/
theorem inOrder_of_keepsRoll {es : List Event} (keys : Keys db) (start : InOrder db)
    (keeps : StepsMeet GroupDb.step (fun s e => e.KeepsRoll s) db es) :
    HoldsAlong GroupDb.step InOrder db es := by
  have sound : Sound db := ⟨keys, fun chat listed live => (start chat listed live).toBalanced⟩
  refine holdsAlong_of_stepsMeet (fun s sound chat listed live => ?_)
    (fun s e t sound keeps happens => step_sound sound keeps happens) sound keeps
  exact membership_of_balanced (sound.balanced chat listed live)

end Runs

/-- Three users who know each other, and no group yet. -/
def noGroups : GroupDb where
  bots := []
  peers := ⟨[⟨12, 1, .user 2, false⟩, ⟨13, 1, .user 3, false⟩, ⟨21, 2, .user 1, false⟩], by decide⟩
  chats := Table.empty
  participants := []
  contents := Table.empty
  refs := Table.empty
  mentions := Table.empty
  mediaReads := []
  server := ⟨fun _ => some 1, [], []⟩
  otherPushed := []
  participantsCount := fun _ => 0
  invites := Table.empty
  inviteRequests := []
  mayInvite := fun _ _ => true
  spamBlocked := []
  groupCreationEnabled := true
  basicGroupMemberLimit := 50
  participantsPushed := []

private theorem noGroups_keys : Keys noGroups := by
  refine ⟨?_, ?_, ?_, ?_, ?_⟩
  · show ∀ p ∈ noGroups.peers.rows, ∀ q ∈ noGroups.peers.rows, _
    decide
  · show ∀ p ∈ noGroups.peers.rows, _
    decide
  · intro p listed chatId target
    have known : ∀ p ∈ noGroups.peers.rows, p.target = .user 1 ∨ p.target = .user 2 ∨
        p.target = .user 3 := by decide
    rcases known p listed with named | named | named <;> cases named.symm.trans target
  · intro p listed
    cases listed
  · intro r listed
    cases listed

/-- User 1 makes a group with user 2, adds user 3 to it and writes to it. -/
theorem inOrder_of_keepsRoll_growing : HoldsAlong GroupDb.step InOrder noGroups
    [.createChat 1 ⟨[.user 2 true], 0⟩, .addChatUser 1 ⟨1, .user 3 true, 0, 1⟩,
      .sendMessage 1 ⟨1, 7, 2⟩] :=
  inOrder_of_keepsRoll noGroups_keys (fun chat listed => absurd listed (Table.notMem_empty chat))
    ⟨trivial, trivial, trivial, trivial⟩

/-- A removed user keeps the peer, gets what is written afterwards and cannot be added again. -/
theorem removed_user_keeps_peer : ∃ removed written, runFrom GroupDb.step noGroups
      [.createChat 1 ⟨[.user 2 true], 0⟩, .deleteChatUser 1 ⟨1, .user 2 true, 1⟩] = some removed ∧
    removed.memberIds 1 = [1] ∧ removed.peerOwners 1 = [1, 2] ∧
    removed.step (.sendMessage 1 ⟨1, 7, 2⟩) = some written ∧
    (∃ r ∈ written.refs.rows, r ∉ removed.refs.rows ∧ r.peer.ownerId = 2) ∧
    (written.addChatUser 1 ⟨1, .user 2 true, 0, 3⟩).raised =
      some (.rpc 400 "USER_ALREADY_PARTICIPANT") ∧
    ¬ HoldsAlong GroupDb.step InOrder noGroups
      [.createChat 1 ⟨[.user 2 true], 0⟩, .deleteChatUser 1 ⟨1, .user 2 true, 1⟩] := by
  obtain ⟨removed, run⟩ : ∃ removed, runFrom GroupDb.step noGroups
      [.createChat 1 ⟨[.user 2 true], 0⟩, .deleteChatUser 1 ⟨1, .user 2 true, 1⟩] =
        some removed := ⟨_, rfl⟩
  have removed_eq := Option.some.inj run.symm
  have members : removed.memberIds 1 = [1] := by rw [removed_eq]; decide
  have owners : removed.peerOwners 1 = [1, 2] := by rw [removed_eq]; decide
  refine ⟨removed, _, run, members, owners, rfl, ?_, ?_, fun inOrder => ?_⟩
  · rw [removed_eq]
    decide
  · rw [removed_eq]
    decide
  · have there : ∃ chat ∈ removed.chats.rows, chat.id = 1 ∧ chat.migrated = false := by
      rw [removed_eq]
      decide
    obtain ⟨chat, listed, named, live⟩ := there
    have members_iff := (inOrder _ removed (List.prefix_refl _) run chat listed live).members 2
    rw [named, members, owners] at members_iff
    revert members_iff
    decide

end Piltover.Chats
