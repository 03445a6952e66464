/- source: piltover/app/handlers/messages/sending.py, piltover/db/models/message_ref.py
   digest: The references that deleting a history removes against those that it announces. -/

import Piltover.Messages.Deletion

set_option autoImplicit false

namespace Piltover.Messages

open Piltover.Foundation
open Piltover.Foundation.Paging
open Piltover.Updates (Manager.Push Manager.TLUpdate)

/-- The identifiers that an update tells a client to delete. -/
def deletedIds : Manager.TLUpdate → List Nat
  | .deleteMessages ids _ _ => ids
  | _ => []

/-- The identifiers that the pushes tell a user to delete. -/
def announcedTo (pushed : List Manager.Push) (userId : Nat) : List Nat :=
  (pushed.filter fun push => push.userId == userId).flatMap fun push =>
    push.updates.flatMap deletedIds

/-- The pushes that a request has added. -/
def pushedSince (db after : Db) : List Manager.Push :=
  after.server.pushed.drop db.server.pushed.length

/-- A deletion touches what it announces: the references that are gone are those announced to their
owners; without `revoke` it is the user's own references that go, and contents that others refer to
stay; of the user's references at most 1000 go, the newest first, and the offset is 0 exactly when
no reference that the request is about is left. -/
structure TouchesAnnounced (db after : Db) (userId : Nat) (request : DeleteHistory) (peer : Peer)
    (offset : Nat) : Prop where
  exact : ∀ owner id, (∃ r ∈ db.refs, r ∉ after.refs ∧ r.peer.ownerId = owner ∧ r.id = id) ↔
    id ∈ announcedTo (pushedSince db after) owner
  othersKept : request.revoke = false → ∀ r ∈ db.refs, r.peer.ownerId ≠ userId → r ∈ after.refs
  contentKept : request.revoke = false → ∀ r ∈ db.refs, r.peer.ownerId ≠ userId →
    after.contents.get r.contentId = db.contents.get r.contentId
  few : (db.refs.rows.filter fun r => r.peer.ownerId = userId ∧ r ∉ after.refs.rows).length ≤ 1000
  newest : ∀ r ∈ db.refs, r ∉ after.refs → r.peer.ownerId = userId →
    ∀ s ∈ after.refs, request.wants peer s → s.id < r.id
  offset : offset = 0 ↔ ∀ r ∈ after.refs, request.wants peer r = false

namespace DeleteHistory

variable (request : DeleteHistory) (db : Db) (peer : Peer)

def fits : Prop := (db.refs.rows.filter (request.wants peer)).length ≤ 1000

/-- Nothing is left for the next request, and the peer is a group. -/
def Leaves : Prop := request.fits db peer ∧ ∃ chatId, peer.target = .chat chatId

/-- Every other reference of a deleted content is announced to its owner, and who leaves a group by
this request asks for all of their references in it, and for all messages saved from it. -/
structure SparesOthers : Prop where
  contents : ∀ r ∈ db.refs, r.contentId ∈ request.contentIds db peer →
    r ∉ request.doomed db peer → request.revoke = true ∧ opposite peer r.peer = true
  leaving : ∀ chatId, peer.target = .chat chatId → request.contentIds db peer ≠ [] →
    request.fits db peer → ∀ r ∈ db.refs,
      (r.peer.id = peer.id → request.wants peer r = true) ∧
        (db.savedFrom peer r.contentId = true → r.contentId ∈ request.contentIds db peer)

end DeleteHistory

section Doomed

variable {request : DeleteHistory} {db : Db} {peer : Peer} {r : MessageRef}

private theorem mem_matching :
    r ∈ db.refs.rows.filter (request.wants peer) ↔ r ∈ db.refs ∧ request.wants peer r = true :=
  List.mem_filter

private theorem doomed_eq :
    request.doomed db peer = newest MessageRef.id (db.refs.rows.filter (request.wants peer)) 1000 :=
  take_newest _ (by decide)

theorem mem_of_mem_doomed (doomed : r ∈ request.doomed db peer) :
    r ∈ db.refs ∧ request.wants peer r = true := by
  rw [doomed_eq] at doomed
  exact mem_matching.mp (mem_of_mem_newest doomed)

theorem mem_doomed_of_fits (fits : request.fits db peer) :
    r ∈ request.doomed db peer ↔ r ∈ db.refs ∧ request.wants peer r = true := by
  rw [doomed_eq, mem_newest_of_length_le fits, mem_matching]

theorem length_doomed_le : (request.doomed db peer).length ≤ 1000 := by
  rw [doomed_eq, length_newest]
  exact Nat.min_le_left _ _

theorem offsetId_eq_zero_iff (refId : ∀ r ∈ db.refs, 0 < r.id) :
    request.offsetId db peer = 0 ↔ request.fits db peer := by
  have length : (newest MessageRef.id (db.refs.rows.filter (request.wants peer)) 1001).length = _ :=
    length_newest _ _
  unfold DeleteHistory.offsetId DeleteHistory.fits
  split
  · rename_i nothing
    have short := List.getElem?_eq_none_iff.mp nothing
    rw [DeleteHistory.messagesToDelete, length] at short
    exact iff_of_true rfl (by omega)
  · rename_i next found
    have member := mem_of_mem_newest (List.mem_of_getElem? found)
    have positive := refId next (mem_matching.mp member).1
    obtain ⟨long, -⟩ := List.getElem?_eq_some_iff.mp found
    rw [DeleteHistory.messagesToDelete, length] at long
    exact iff_of_false (by omega) (by omega)

theorem exists_left_of_not_fits (more : ¬ request.fits db peer) :
    ∃ s ∈ db.refs, request.wants peer s = true ∧ s ∉ request.doomed db peer := by
  by_contra none
  push Not at none
  have nodup : (db.refs.rows.filter (request.wants peer)).Nodup :=
    (List.Nodup.of_map _ db.refs.unique).filter _
  have all : db.refs.rows.filter (request.wants peer) ⊆ request.doomed db peer := by
    intro s listed
    obtain ⟨there, wanted⟩ := mem_matching.mp listed
    exact none s there wanted
  exact more ((nodup.subperm all).length_le.trans length_doomed_le)

end Doomed

section Outcome

variable {request : DeleteHistory} {db : Db} {peer : Peer} {userId : Nat}

theorem mem_deleteContents {contentIds : List Nat} {r : MessageRef} :
    r ∈ (db.deleteContents contentIds).refs ↔ r ∈ db.refs ∧ r.contentId ∉ contentIds := by
  simp [Db.deleteContents, Db.deleteRefs]

theorem get_deleteContents {contentIds : List Nat} {contentId : Nat}
    (kept : contentId ∉ contentIds) :
    (db.deleteContents contentIds).contents.get contentId = db.contents.get contentId := by
  have removed := Table.get_remove db.contents (fun c => contentIds.contains c.id) contentId
  refine removed.trans ?_
  cases found : db.contents.get contentId with
  | none => rfl
  | some content =>
    obtain ⟨-, rfl⟩ := Table.get_eq_some_iff.mp found
    simp [kept]

theorem mem_savedIds {contentId : Nat} :
    contentId ∈ (db.contents.rows.map MessageContent.id).filter (db.savedFrom peer) ↔
      db.savedFrom peer contentId = true := by
  rw [List.mem_filter, and_iff_right_of_imp]
  intro saved
  obtain ⟨content, found, -⟩ := (Option.any_eq_true _ _).mp saved
  obtain ⟨there, named⟩ := Table.get_eq_some_iff.mp found
  exact List.mem_map.mpr ⟨content, there, named⟩


structure Outcome (request : DeleteHistory) (db : Db) (userId : Nat) (peer : Peer) (after : Db) :
    Prop where
  refs : ∀ r, r ∈ after.refs ↔ r ∈ db.refs ∧ r.contentId ∉ request.contentIds db peer ∧
    ¬ (request.Leaves db peer ∧ (r.peer.id = peer.id ∨ db.savedFrom peer r.contentId = true))
  contents : ∀ contentId, contentId ∉ request.contentIds db peer →
    ¬ (request.Leaves db peer ∧ db.savedFrom peer contentId = true) →
      after.contents.get contentId = db.contents.get contentId
  announced : ∀ owner, announcedTo (pushedSince db after) owner =
    ((request.messages db peer userId).lookup owner).getD []

private theorem announcedTo_entries (messages : OrderedDict Nat (List Nat)) (pts : Nat → Int)
    (owner : Nat) :
    announcedTo (messages.entries.map fun item =>
        ⟨item.1, none, [.deleteMessages item.2 (pts item.1) item.2.length]⟩) owner =
      (messages.lookup owner).getD [] := by
  have own := OrderedDict.filter_entries messages owner
  have check : (fun item : Sigma fun _ : Nat => List Nat => item.1 == owner) =
      fun item => decide (item.1 = owner) := rfl
  simp only [announcedTo, List.filter_map, Function.comp_def, check, own, List.flatMap_map]
  cases messages.lookup owner with
  | none => rfl
  | some ids => simp [deletedIds]

private theorem lookup_messages_self : ∃ ids,
    (request.messages db peer userId).lookup userId = some ids := by
  unfold DeleteHistory.messages
  rw [OrderedDict.lookup_appendAll]
  split
  · exact ⟨_, (OrderedDict.lookup_setItem _ _ _ _).trans (if_pos rfl)⟩
  · exact ⟨_, rfl⟩

private theorem owner_of_mem_messages {user : Nat}
    (member : user ∈ request.messages db peer userId) :
    user = userId ∨ ∃ r ∈ request.revoked db peer, r.peer.ownerId = user := by
  obtain ⟨ids, found⟩ := Option.isSome_iff_exists.mp (AList.lookup_isSome.mpr member)
  unfold DeleteHistory.messages at found
  rw [OrderedDict.lookup_appendAll] at found
  split at found
  · rw [OrderedDict.lookup_setItem] at found
    split at found
    · rename_i same
      exact .inl same
    · rw [AList.lookup_empty] at found
      cases found
  · rename_i some
    obtain ⟨pair, listed⟩ := List.exists_mem_of_ne_nil _ some
    obtain ⟨made, hit⟩ := List.mem_filter.mp listed
    obtain ⟨r, revoked, rfl⟩ := List.mem_map.mp made
    exact .inr ⟨r, revoked, of_decide_eq_true hit⟩

theorem mem_of_mem_revoked {r : MessageRef} (revoked : r ∈ request.revoked db peer) :
    r ∈ db.refs ∧ request.revoke = true ∧ DeleteHistory.opposite peer r.peer = true ∧
      r.contentId ∈ request.contentIds db peer := by
  unfold DeleteHistory.revoked at revoked
  split at revoked
  · rename_i revokes
    obtain ⟨there, found⟩ := List.mem_filter.mp revoked
    simp only [Bool.and_eq_true, List.contains_iff_mem] at found
    exact ⟨there, revokes, found.1, found.2⟩
  · cases revoked

private theorem peer_facts (resolved : db.fromInputPeerRaise userId request.peerId false = .ok peer) :
    peer ∈ db.peers ∧ peer.ownerId = userId := by
  obtain ⟨here, own⟩ := db.fromInputPeerRaise_eq_ok resolved
  exact ⟨(Table.get_eq_some_iff.mp here).1, own⟩

private theorem updUpdateChat_outcome (chatId : Nat)
    (known : ∀ p ∈ db.participants, (db.server.statePts p.2.userId).isSome) :
    ∃ after, db.updUpdateChat chatId = .ok after ∧ after.refs = db.refs ∧
      after.contents = db.contents ∧ after.server.pushed = db.server.pushed := by
  have users : ∀ user ∈ (db.participants.filter fun p => p.1 == chatId && !p.2.left).map
      (fun p => p.2.userId), (db.server.statePts user).isSome := by
    intro user listed
    obtain ⟨p, member, rfl⟩ := List.mem_map.mp listed
    exact known p (List.mem_of_mem_filter member)
  obtain ⟨⟨statePts, ptss⟩, added⟩ := Option.isSome_iff_exists.mp
    (Updates.State.addPtsBulk_isSome (List.length_map fun _ => (1 : Int)) users)
  unfold Db.updUpdateChat
  simp only [added]
  exact ⟨_, rfl, rfl, rfl, rfl⟩

private theorem closeHistory_outcome {offset : Nat}
    (known : ∀ p ∈ db.participants, (db.server.statePts p.2.userId).isSome) :
    ∃ after, closeHistory db userId peer offset = .ok after ∧
      (∀ r, r ∈ after.refs ↔ r ∈ db.refs ∧ ¬ ((offset = 0 ∧ ∃ chatId, peer.target = .chat chatId) ∧
        (r.peer.id = peer.id ∨ db.savedFrom peer r.contentId = true))) ∧
      (∀ contentId, ¬ ((offset = 0 ∧ ∃ chatId, peer.target = .chat chatId) ∧
        db.savedFrom peer contentId = true) →
          after.contents.get contentId = db.contents.get contentId) ∧
      after.server.pushed = db.server.pushed := by
  unfold closeHistory leaveChat
  by_cases last : offset = 0
  · rw [if_pos last]
    cases group : peer.target with
    | self => exact ⟨db, rfl, fun r => by simp, fun _ _ => rfl, rfl⟩
    | user other => exact ⟨db, rfl, fun r => by simp, fun _ _ => rfl, rfl⟩
    | chat chatId =>
      let leftDb : Db := { db with
        participants := db.participants.filter fun p =>
          !(p.1 == chatId && p.2.userId == userId) }
      have stay : ∀ p ∈ (leftDb.deletePeer peer).participants,
          ((leftDb.deletePeer peer).server.statePts p.2.userId).isSome := fun p member =>
        known p (List.mem_of_mem_filter member)
      obtain ⟨after, done, refs, contents, pushed⟩ := updUpdateChat_outcome chatId stay
      have kept : ∀ r, r ∈ (leftDb.deletePeer peer).refs ↔
          (r ∈ db.refs ∧ ¬ db.savedFrom peer r.contentId = true) ∧ r.peer.id ≠ peer.id := by
        intro r
        have removed : r ∈ (leftDb.deletePeer peer).refs ↔ r ∈ (leftDb.deleteContents
            ((db.contents.rows.map MessageContent.id).filter (db.savedFrom peer))).refs ∧
              (r.peer.id == peer.id) = false := Table.mem_remove
        rw [removed, mem_deleteContents, mem_savedIds, beq_eq_false_iff_ne]
      refine ⟨after, done, fun r => ?_, fun contentId spared => ?_, pushed⟩
      · rw [refs, kept]
        simp only [last, true_and, PeerTarget.chat.injEq, exists_eq', not_or, and_assoc, ne_eq]
        tauto
      · rw [contents]
        refine get_deleteContents fun saved => spared ⟨⟨last, chatId, rfl⟩, ?_⟩
        exact mem_savedIds.mp saved
  · rw [if_neg last]
    exact ⟨db, rfl, fun r => by simp [last], fun _ _ => rfl, rfl⟩

theorem deleteHistory_outcome (consistent : db.Consistent)
    (resolved : db.fromInputPeerRaise userId request.peerId false = .ok peer)
    (undated : request.minDate = 0 ∧ request.maxDate = 0)
    (something : request.contentIds db peer ≠ []) :
    ∃ after pts, deleteHistory db userId request =
        .ok (after, ⟨pts, (((request.messages db peer userId).lookup userId).getD []).length,
          request.offsetId db peer⟩) ∧
      Outcome request db userId peer after := by
  obtain ⟨listed, own⟩ := peer_facts resolved
  have known : ∀ user ∈ request.messages db peer userId, (db.server.statePts user).isSome := by
    intro user member
    rcases owner_of_mem_messages member with rfl | ⟨r, revoked, rfl⟩
    · rw [← own]
      exact consistent.peerState peer listed
    · exact consistent.peerState r.peer (consistent.refPeer r (mem_of_mem_revoked revoked).1)
  obtain ⟨ids, mine⟩ : ∃ ids, (request.messages db peer userId).lookup userId = some ids :=
    lookup_messages_self
  obtain ⟨server, pts, deleted⟩ := Updates.Manager.deleteMessages_isSome known mine
  have step : db.server.step (.deleteMessages (some userId) (request.messages db peer userId)) =
      some server := by
    rw [Updates.Manager.Server.step, deleted]
    rfl
  have states : ∀ p ∈ db.participants, (server.statePts p.2.userId).isSome := fun p member =>
    Updates.Manager.step_known (consistent.participantState p member) step
  let deletedDb : Db :=
    { db.deleteContents (request.contentIds db peer) with server := server }
  have kept : ∀ p ∈ deletedDb.participants, (deletedDb.server.statePts p.2.userId).isSome := states
  obtain ⟨after, closed, refs, contents, pushed⟩ :
      ∃ after, closeHistory deletedDb userId peer (request.offsetId db peer) = .ok after ∧ _ :=
    closeHistory_outcome kept
  have saved : ∀ {contentId}, contentId ∉ request.contentIds db peer →
      deletedDb.savedFrom peer contentId = db.savedFrom peer contentId := fun gone =>
    congrArg (Option.any _) (get_deleteContents gone)
  have announce : (db.deleteContents (request.contentIds db peer)).updDeleteMessages userId
      (request.messages db peer userId) = .ok (deletedDb, pts) := by
    rw [Db.updDeleteMessages, show (db.deleteContents _).server = db.server from rfl, deleted]
  refine ⟨after, pts, ?_, ?_, ?_, ?_⟩
  · unfold deleteHistory
    rw [resolved]
    simp only [bind, Except.bind, undated.1, undated.2, require, beq_self_eq_true, Bool.and_self,
      ↓reduceIte, something, announce, closed]
    rfl
  · intro r
    rw [refs, DeleteHistory.Leaves, ← offsetId_eq_zero_iff consistent.refId]
    refine ((and_congr_left' mem_deleteContents).trans and_assoc).trans ?_
    refine and_congr_right' (and_congr_right fun gone => ?_)
    rw [saved gone]
  · intro contentId gone spared
    rw [DeleteHistory.Leaves, ← offsetId_eq_zero_iff consistent.refId, ← saved gone] at spared
    exact (contents contentId spared).trans (get_deleteContents gone)
  · intro owner
    have told := Updates.Manager.deleteMessages_pushed deleted
    rw [← announcedTo_entries (request.messages db peer userId)
      (fun user => (server.statePts user).getD 0), pushedSince, pushed,
      show deletedDb.server.pushed = server.pushed from rfl, told, List.drop_left]

variable {after : Db}

def DeleteHistory.announcedRefs (request : DeleteHistory) (db : Db) (peer : Peer)
    (r : MessageRef) : Prop :=
  r ∈ request.doomed db peer ∨ r ∈ request.revoked db peer

def DeleteHistory.AnnouncesAll (request : DeleteHistory) (db : Db) (peer : Peer) : Prop :=
  ∀ r ∈ db.refs, (r.contentId ∈ request.contentIds db peer ∨ (request.Leaves db peer ∧
    (r.peer.id = peer.id ∨ db.savedFrom peer r.contentId = true))) →
      request.announcedRefs db peer r

private theorem peer_of_wants (consistent : db.Consistent) (listed : peer ∈ db.peers)
    {r : MessageRef} (there : r ∈ db.refs) (same : r.peer.id = peer.id) : r.peer = peer :=
  Table.eq_of_key_eq (consistent.refPeer r there) listed same

private theorem peer_of_mem_doomed (consistent : db.Consistent) (listed : peer ∈ db.peers)
    {r : MessageRef} (doomed : r ∈ request.doomed db peer) : r.peer = peer := by
  obtain ⟨there, wanted⟩ := mem_of_mem_doomed doomed
  simp only [DeleteHistory.wants, Bool.and_eq_true, beq_iff_eq] at wanted
  exact peer_of_wants consistent listed there wanted.1

private theorem owner_ne_of_opposite (consistent : db.Consistent) (listed : peer ∈ db.peers)
    {other : Peer} (opposite : DeleteHistory.opposite peer other = true) :
    other.ownerId ≠ peer.ownerId := by
  have apart := consistent.notSelf peer listed
  unfold DeleteHistory.opposite at opposite
  split at opposite
  · cases opposite
  · rename_i user target
    simp only [Bool.and_eq_true, beq_iff_eq] at opposite
    rintro same
    exact apart (by rw [target, ← same, opposite.1])
  · simp only [Bool.and_eq_true, bne_iff_ne] at opposite
    exact opposite.1

private theorem contentId_of_announced {r : MessageRef}
    (announced : request.announcedRefs db peer r) :
    r ∈ db.refs ∧ r.contentId ∈ request.contentIds db peer := by
  rcases announced with doomed | revoked
  · exact ⟨(mem_of_mem_doomed doomed).1, List.mem_map_of_mem doomed⟩
  · obtain ⟨there, -, -, content⟩ := mem_of_mem_revoked revoked
    exact ⟨there, content⟩

private theorem mem_messages_iff (consistent : db.Consistent) (listed : peer ∈ db.peers)
    (own : peer.ownerId = userId) (owner id : Nat) :
    id ∈ ((request.messages db peer userId).lookup owner).getD [] ↔
      ∃ r, request.announcedRefs db peer r ∧ r.peer.ownerId = owner ∧ r.id = id := by
  have others : (ownerIds (request.revoked db peer)).filter (fun p => p.1 = owner) =
      ownerIds ((request.revoked db peer).filter fun r => r.peer.ownerId = owner) := by
    rw [ownerIds, List.filter_map]
    rfl
  have first : id ∈ ((OrderedDict.setItem (∅ : OrderedDict Nat (List Nat)) userId
      ((request.doomed db peer).map MessageRef.id)).lookup owner).getD [] ↔
      ∃ r ∈ request.doomed db peer, r.peer.ownerId = owner ∧ r.id = id := by
    have doomedOwner : ∀ r ∈ request.doomed db peer, r.peer.ownerId = userId := fun r doomed => by
      rw [peer_of_mem_doomed consistent listed doomed, own]
    rw [OrderedDict.lookup_setItem]
    by_cases same : owner = userId
    · rw [if_pos same, Option.getD_some, List.mem_map]
      exact ⟨fun ⟨r, doomed, named⟩ => ⟨r, doomed, (doomedOwner r doomed).trans same.symm, named⟩,
        fun ⟨r, doomed, _, named⟩ => ⟨r, doomed, named⟩⟩
    · rw [if_neg same, AList.lookup_empty]
      refine iff_of_false List.not_mem_nil ?_
      rintro ⟨r, doomed, named, -⟩
      exact same (named.symm.trans (doomedOwner r doomed))
  have split : (∃ r, request.announcedRefs db peer r ∧ r.peer.ownerId = owner ∧ r.id = id) ↔
      (∃ r ∈ request.doomed db peer, r.peer.ownerId = owner ∧ r.id = id) ∨
        ∃ r ∈ request.revoked db peer, r.peer.ownerId = owner ∧ r.id = id := by
    simp only [DeleteHistory.announcedRefs, or_and_right, exists_or]
  have second : id ∈ (ownerIds ((request.revoked db peer).filter fun r =>
      r.peer.ownerId = owner)).map Prod.snd ↔
      ∃ r ∈ request.revoked db peer, r.peer.ownerId = owner ∧ r.id = id := by
    simp [ownerIds, and_assoc]
  rw [split, ← first, ← second, DeleteHistory.messages, OrderedDict.lookup_appendAll, others]
  split_ifs with quiet
  · rw [quiet]
    simp
  · rw [Option.getD_some, List.mem_append]

private theorem exact_iff (consistent : db.Consistent) (listed : peer ∈ db.peers)
    (own : peer.ownerId = userId) (outcome : Outcome request db userId peer after) :
    (∀ owner id, (∃ r ∈ db.refs, r ∉ after.refs ∧ r.peer.ownerId = owner ∧ r.id = id) ↔
      id ∈ announcedTo (pushedSince db after) owner) ↔ request.AnnouncesAll db peer := by
  have gone : ∀ r ∈ db.refs, (r ∉ after.refs ↔ r.contentId ∈ request.contentIds db peer ∨
      (request.Leaves db peer ∧
        (r.peer.id = peer.id ∨ db.savedFrom peer r.contentId = true))) := by
    intro r there
    rw [outcome.refs r]
    tauto
  simp only [outcome.announced, mem_messages_iff consistent listed own]
  constructor
  · intro exact r there leaves
    obtain ⟨s, announced, -, same⟩ :=
      (exact r.peer.ownerId r.id).mp ⟨r, there, (gone r there).mpr leaves, rfl, rfl⟩
    have found := (contentId_of_announced announced).1
    rw [← Table.eq_of_key_eq found there same]
    exact announced
  · intro all owner id
    constructor
    · rintro ⟨r, there, left, rfl, rfl⟩
      exact ⟨r, all r there ((gone r there).mp left), rfl, rfl⟩
    · rintro ⟨r, announced, rfl, rfl⟩
      obtain ⟨there, content⟩ := contentId_of_announced announced
      exact ⟨r, there, (gone r there).mpr (.inl content), rfl, rfl⟩

private theorem announcesAll_iff (consistent : db.Consistent) (listed : peer ∈ db.peers)
    (something : request.contentIds db peer ≠ []) :
    request.AnnouncesAll db peer ↔ request.SparesOthers db peer := by
  constructor
  · intro all
    refine ⟨fun r there content kept => ?_, fun chatId group _ fits r there =>
      ⟨fun same => ?_, fun saved => ?_⟩⟩
    · have revoked := (all r there (.inl content)).resolve_left kept
      obtain ⟨-, revokes, opposite, -⟩ := mem_of_mem_revoked revoked
      exact ⟨revokes, opposite⟩
    · rcases all r there (.inr ⟨⟨fits, chatId, group⟩, .inl same⟩) with doomed | revoked
      · exact (mem_of_mem_doomed doomed).2
      · obtain ⟨-, -, opposite, -⟩ := mem_of_mem_revoked revoked
        have apart := owner_ne_of_opposite consistent listed opposite
        rw [peer_of_wants consistent listed there same] at apart
        exact absurd rfl apart
    · exact (contentId_of_announced (all r there (.inr ⟨⟨fits, chatId, group⟩, .inr saved⟩))).2
  · intro spares r there goes
    have deleted : r.contentId ∈ request.contentIds db peer → request.announcedRefs db peer r := by
      intro content
      by_cases doomed : r ∈ request.doomed db peer
      · exact .inl doomed
      · obtain ⟨revokes, opposite⟩ := spares.contents r there content doomed
        refine .inr ?_
        rw [DeleteHistory.revoked, if_pos revokes]
        refine List.mem_filter.mpr ⟨there, ?_⟩
        rw [opposite, Bool.true_and]
        exact List.contains_iff_mem.mpr content
    rcases goes with content | ⟨⟨fits, chatId, group⟩, same | saved⟩
    · exact deleted content
    · exact .inl ((mem_doomed_of_fits fits).mpr
        ⟨there, (spares.leaving chatId group something fits r there).1 same⟩)
    · exact deleted ((spares.leaving chatId group something fits r there).2 saved)

private theorem touches_of_exact (consistent : db.Consistent) (listed : peer ∈ db.peers)
    (own : peer.ownerId = userId) (outcome : Outcome request db userId peer after)
    (all : request.AnnouncesAll db peer)
    (exact : ∀ owner id, (∃ r ∈ db.refs, r ∉ after.refs ∧ r.peer.ownerId = owner ∧ r.id = id) ↔
      id ∈ announcedTo (pushedSince db after) owner) :
    TouchesAnnounced db after userId request peer (request.offsetId db peer) := by
  have announced : ∀ r ∈ db.refs, r ∉ after.refs → request.announcedRefs db peer r := by
    intro r there left
    refine all r there ?_
    rw [outcome.refs r] at left
    tauto
  have mine : ∀ r ∈ db.refs, r ∉ after.refs → r.peer.ownerId = userId →
      r ∈ request.doomed db peer := by
    intro r there left user
    refine (announced r there left).resolve_right fun revoked => ?_
    obtain ⟨-, -, opposite, -⟩ := mem_of_mem_revoked revoked
    exact owner_ne_of_opposite consistent listed opposite (user.trans own.symm)
  have othersKept : request.revoke = false → ∀ r ∈ db.refs, r.peer.ownerId ≠ userId →
      r ∈ after.refs := by
    intro alone r there other
    by_contra left
    rcases announced r there left with doomed | revoked
    · rw [peer_of_mem_doomed consistent listed doomed] at other
      exact other own
    · rw [(mem_of_mem_revoked revoked).2.1] at alone
      cases alone
  refine ⟨exact, othersKept, fun alone r there other => ?_, ?_, fun r there left user s here wanted =>
    ?_, ?_⟩
  · obtain ⟨-, kept, stays⟩ := (outcome.refs r).mp (othersKept alone r there other)
    exact outcome.contents r.contentId kept fun saved => stays ⟨saved.1, .inr saved.2⟩
  · have nodup : (db.refs.rows.filter fun r =>
        r.peer.ownerId = userId ∧ r ∉ after.refs.rows).Nodup :=
      (List.Nodup.of_map _ db.refs.unique).filter _
    have within : (db.refs.rows.filter fun r =>
        r.peer.ownerId = userId ∧ r ∉ after.refs.rows) ⊆ request.doomed db peer := by
      intro r found
      obtain ⟨there, chosen⟩ := List.mem_filter.mp found
      obtain ⟨user, left⟩ := of_decide_eq_true chosen
      exact mine r there left user
    exact (nodup.subperm within).length_le.trans length_doomed_le
  · have doomed := mine r there left user
    obtain ⟨before, content, -⟩ := (outcome.refs s).mp here
    have kept : s ∉ request.doomed db peer := fun taken =>
      content (List.mem_map_of_mem taken)
    have apart : s.id ≠ r.id := fun same => by
      obtain rfl := Table.eq_of_key_eq before there same
      exact left here
    rw [doomed_eq] at doomed kept
    have older := key_le_of_mem_newest doomed (mem_matching.mpr ⟨before, wanted⟩) kept
    omega
  · rw [offsetId_eq_zero_iff consistent.refId]
    constructor
    · intro fits r here
      obtain ⟨before, content, -⟩ := (outcome.refs r).mp here
      by_contra wanted
      have doomed := (mem_doomed_of_fits fits).mpr ⟨before, by simpa using wanted⟩
      exact content (List.mem_map_of_mem doomed)
    · intro none
      by_contra more
      obtain ⟨s, before, wanted, kept⟩ := exists_left_of_not_fits more
      have same : s.peer = peer := by
        simp only [DeleteHistory.wants, Bool.and_eq_true, beq_iff_eq] at wanted
        exact peer_of_wants consistent listed before wanted.1
      have here : s ∈ after.refs := by
        by_contra left
        exact kept (mine s before left (by rw [same, own]))
      rw [none s here] at wanted
      cases wanted

end Outcome

private theorem wants_eq_false_of_nothing {db : Db} {request : DeleteHistory} {peer : Peer}
    (nothing : request.contentIds db peer = []) :
    ∀ r ∈ db.refs, request.wants peer r = false := by
  intro r there
  by_contra wanted
  have length : (newest MessageRef.id (db.refs.rows.filter (request.wants peer)) 1000).length = _ :=
    length_newest _ _
  have doomed : request.doomed db peer = [] := List.map_eq_nil_iff.mp nothing
  rw [← doomed_eq, doomed, List.length_nil] at length
  have listed : r ∈ db.refs.rows.filter (request.wants peer) :=
    mem_matching.mpr ⟨there, by simpa using wanted⟩
  have positive := List.length_pos_of_mem listed
  omega

private theorem touches_nothing {db after : Db} {userId : Nat} {request : DeleteHistory}
    {peer : Peer} (nothing : request.contentIds db peer = []) (refs : after.refs = db.refs)
    (contents : after.contents = db.contents) (pushed : after.server.pushed = db.server.pushed) :
    TouchesAnnounced db after userId request peer 0 := by
  have quiet : pushedSince db after = [] := by
    rw [pushedSince, pushed]
    exact List.drop_length
  refine ⟨fun owner id => ?_, fun _ r there _ => refs ▸ there, fun _ _ _ _ => by rw [contents], ?_,
    fun r there left => absurd (refs ▸ there) left, ?_⟩
  · rw [quiet, refs]
    refine iff_of_false ?_ List.not_mem_nil
    rintro ⟨r, there, left, -⟩
    exact left there
  · rw [List.filter_eq_nil_iff.mpr]
    · exact Nat.zero_le _
    · intro r there
      rw [refs]
      simp [there]
  · rw [refs]
    exact iff_of_true rfl (wants_eq_false_of_nothing nothing)

private theorem deleteHistory_undated {db : Db} {userId : Nat} {request : DeleteHistory} {peer : Peer}
    (consistent : db.Consistent)
    (resolved : db.fromInputPeerRaise userId request.peerId false = .ok peer)
    (undated : request.minDate = 0 ∧ request.maxDate = 0) :
    ∃ after answer, deleteHistory db userId request = .ok (after, answer) ∧
      (TouchesAnnounced db after userId request peer answer.offset ↔
        request.SparesOthers db peer) := by
  obtain ⟨listed, own⟩ := peer_facts resolved
  by_cases nothing : request.contentIds db peer = []
  · obtain ⟨before, known⟩ := Option.isSome_iff_exists.mp (consistent.peerState peer listed)
    rw [own] at known
    obtain ⟨after, pts, added, refs, contents, pushed⟩ : ∃ after pts,
        db.addPts userId 0 = .ok (after, pts) ∧ after.refs = db.refs ∧
          after.contents = db.contents ∧ after.server.pushed = db.server.pushed := by
      rw [Db.addPts, known]
      exact ⟨_, _, rfl, rfl, rfl, rfl⟩
    refine ⟨after, ⟨pts, 0, 0⟩, ?_, ?_⟩
    · unfold deleteHistory
      rw [resolved]
      simp only [bind, Except.bind, undated.1, undated.2, require, beq_self_eq_true, Bool.and_self,
        ↓reduceIte, nothing, added]
      rfl
    · refine iff_of_true (touches_nothing nothing refs contents pushed) ⟨?_, ?_⟩
      · intro r _ content
        rw [nothing] at content
        cases content
      · intro _ _ something
        exact absurd nothing something
  · obtain ⟨after, pts, done, outcome⟩ :=
      deleteHistory_outcome consistent resolved undated nothing
    refine ⟨after, _, done, ?_⟩
    rw [← announcesAll_iff consistent listed nothing]
    constructor
    · intro touches
      exact (exact_iff consistent listed own outcome).mp touches.exact
    · intro all
      exact touches_of_exact consistent listed own outcome all
        ((exact_iff consistent listed own outcome).mpr all)

/-- Deleting a history touches exactly what it announces when it spares the references of others,
and leaving a group comes with a request for all of its references; only dated requests fail. -/
theorem touchesAnnounced_iff {db : Db} {userId : Nat} {request : DeleteHistory} {peer : Peer}
    (consistent : db.Consistent)
    (resolved : db.fromInputPeerRaise userId request.peerId false = .ok peer) :
    match deleteHistory db userId request with
    | .error _ => request.minDate ≠ 0 ∨ request.maxDate ≠ 0
    | .ok (after, answer) => TouchesAnnounced db after userId request peer answer.offset ↔
        request.SparesOthers db peer := by
  by_cases undated : request.minDate = 0 ∧ request.maxDate = 0
  · obtain ⟨after, answer, done, touches⟩ := deleteHistory_undated consistent resolved undated
    rw [done]
    exact touches
  · have failed : deleteHistory db userId request = .error .other := by
      unfold deleteHistory
      rw [resolved]
      have dated : (request.minDate == 0 && request.maxDate == 0) = false := by
        simpa using undated
      simp only [bind, Except.bind, dated, require]
      rfl
    rw [failed]
    show request.minDate ≠ 0 ∨ request.maxDate ≠ 0
    omega

/-- Users 1 and 2 have two messages in common, the peer of either has a reference of each. -/
def talkDb : Db where
  bots := []
  peers := ⟨[⟨30, 1, .user 2, false⟩, ⟨40, 2, .user 1, false⟩], by decide⟩
  chats := Table.empty
  participants := []
  contents := ⟨[⟨5, .regular, some 1, false, false, 0, none⟩,
    ⟨6, .regular, some 2, false, false, 1, none⟩], by decide⟩
  refs := ⟨[⟨100, ⟨30, 1, .user 2, false⟩, 5, false, 0⟩, ⟨101, ⟨40, 2, .user 1, false⟩, 5, false, 0⟩,
    ⟨102, ⟨30, 1, .user 2, false⟩, 6, false, 0⟩, ⟨103, ⟨40, 2, .user 1, false⟩, 6, false, 0⟩],
    by decide⟩
  mentions := Table.empty
  mediaReads := []
  server := ⟨fun user => if user = 1 then some 7 else if user = 2 then some 3 else none, [], []⟩
  otherPushed := []

private theorem talkDb_consistent : talkDb.Consistent := by
  refine ⟨?_, ?_, ?_, ?_, ?_, ?_, ?_⟩
  · show ∀ p ∈ talkDb.peers.rows, ∀ q ∈ talkDb.peers.rows, _
    decide
  · show ∀ p ∈ talkDb.peers.rows, _
    decide
  · show ∀ r ∈ talkDb.refs.rows, r.peer ∈ talkDb.peers.rows
    decide
  · show ∀ r ∈ talkDb.refs.rows, ∀ s ∈ talkDb.refs.rows, _
    decide
  · show ∀ r ∈ talkDb.refs.rows, _
    decide
  · show ∀ p ∈ talkDb.peers.rows, (talkDb.server.statePts p.ownerId).isSome
    decide
  · show ∀ p ∈ talkDb.participants, (talkDb.server.statePts p.2.userId).isSome
    decide

/-- With `revoke`, both references of the older message are announced. -/
theorem touchesAnnounced_iff_talk : ∃ after answer,
    deleteHistory talkDb 1 ⟨30, 100, 0, 0, true⟩ = .ok (after, answer) ∧
      TouchesAnnounced talkDb after 1 ⟨30, 100, 0, 0, true⟩ ⟨30, 1, .user 2, false⟩
        answer.offset := by
  obtain ⟨⟨after, answer⟩, done⟩ : ∃ result,
      deleteHistory talkDb 1 ⟨30, 100, 0, 0, true⟩ = .ok result := ⟨_, rfl⟩
  have touches := @touchesAnnounced_iff talkDb 1 ⟨30, 100, 0, 0, true⟩ ⟨30, 1, .user 2, false⟩
    talkDb_consistent rfl
  rw [done] at touches
  refine ⟨after, answer, done, touches.mpr ⟨?_, ?_⟩⟩
  · show ∀ r ∈ talkDb.refs.rows, _
    decide
  · intro chatId group
    cases group

/-- Without `revoke`, the reference of the other user goes with the content, unannounced. -/
theorem content_takes_the_other_reference : ∃ after answer,
    deleteHistory talkDb 1 ⟨30, 100, 0, 0, false⟩ = .ok (after, answer) ∧
      (∃ r ∈ talkDb.refs.rows, r ∉ after.refs.rows ∧ r.peer.ownerId = 2 ∧ r.id = 101) ∧
      announcedTo (pushedSince talkDb after) 2 = [] ∧
      ¬ TouchesAnnounced talkDb after 1 ⟨30, 100, 0, 0, false⟩ ⟨30, 1, .user 2, false⟩
        answer.offset := by
  obtain ⟨⟨after, answer⟩, done⟩ : ∃ result,
      deleteHistory talkDb 1 ⟨30, 100, 0, 0, false⟩ = .ok result := ⟨_, rfl⟩
  cases done
  have other : (⟨101, ⟨40, 2, .user 1, false⟩, 5, false, 0⟩ : MessageRef) ∈ talkDb.refs.rows := by
    decide
  refine ⟨_, _, rfl, ⟨_, other, by decide, rfl, rfl⟩, by decide, fun touches => ?_⟩
  have kept := touches.othersKept rfl _ other (by decide)
  exact absurd kept (show _ ∉ (_ : Table MessageRef.id).rows by decide)

end Piltover.Messages
