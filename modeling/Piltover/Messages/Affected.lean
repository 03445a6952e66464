/- source: piltover/app/handlers/messages/sending.py, piltover/app/handlers/messages/history.py,
     piltover/app/handlers/messages/saved_dialogs.py
   digest: When the pts and the count of an answer account for the caller. -/

import Piltover.Messages.Deletion
import Piltover.Messages.Reading

set_option autoImplicit false

namespace Piltover.Messages

open Piltover.Foundation
open Piltover.Foundation.Paging
open Piltover.Updates (Manager.Server State.Counters State.addPts)

/-- The requests that are answered with an affected pts. -/
inductive AffectingRequest
  | deleteMessages (request : DeleteMessages)
  | deleteHistory (request : DeleteHistory)
  | deleteSavedHistory (request : DeleteSavedHistory)
  | unpinAllMessages (peerId : Nat)
  | readMessageContents (ids : List Nat)
  | readMentions (peerId : Nat)
  deriving DecidableEq

def AffectingRequest.handle (db : Db) (userId : Nat) :
    AffectingRequest → Except Failure (Db × Affected)
  | .deleteMessages request => Messages.deleteMessages db userId request
  | .deleteHistory request => Messages.deleteHistory db userId request
  | .deleteSavedHistory request => Messages.deleteSavedHistory db userId request
  | .unpinAllMessages peerId => Messages.unpinAllMessages db userId peerId
  | .readMessageContents ids => Messages.readMessageContents db userId ids
  | .readMentions peerId => Messages.readMentions db userId peerId

/-- The answer carries the caller's pts after the request, and the amount it was raised by. -/
structure Accounts (before after : State.Counters) (userId : Nat) (answer : Affected) : Prop where
  pts : after userId = some answer.pts
  ptsCount : before userId = some (answer.pts - answer.ptsCount)

/-- The deleted references are the caller's; an unpinned conversation has a pinned reference of the
caller, or has none at all, or the caller's pts is still 0. -/
def AffectingRequest.CountsOwn (db : Db) (userId : Nat) : AffectingRequest → Prop
  | .deleteMessages request => ∀ r ∈ request.doomed db userId, r.peer.ownerId = userId
  | .unpinAllMessages peerId => ∀ peer ∈ db.peers.get peerId,
      pinnedRefs db peer = [] ∨ (∃ r ∈ pinnedRefs db peer, r.peer.ownerId = userId) ∨
        db.server.statePts userId = some 0
  | _ => True

instance (db : Db) (userId : Nat) : ∀ request, Decidable (AffectingRequest.CountsOwn db userId request)
  | .deleteMessages _ => inferInstanceAs (Decidable (∀ _ ∈ _, _ = _))
  | .unpinAllMessages _ => inferInstanceAs (Decidable (∀ _ ∈ _, _ ∨ _ ∨ _))
  | .deleteHistory _ | .deleteSavedHistory _ | .readMessageContents _ | .readMentions _ =>
    inferInstanceAs (Decidable True)

section Counters

variable {db after : Db} {userId : Nat} {pts : Int}

theorem addPts_zero (done : db.addPts userId 0 = .ok (after, pts)) :
    Accounts db.server.statePts after.server.statePts userId ⟨pts, 0, 0⟩ := by
  rw [Db.addPts] at done
  split at done
  · cases done
  · rename_i before known
    cases done
    refine ⟨Function.update_self _ _ _, ?_⟩
    rw [known]
    simp [State.addPts]

theorem updReadMessagesContents_accounts {messageIds : List Nat}
    (done : db.updReadMessagesContents userId messageIds = .ok (after, pts)) :
    Accounts db.server.statePts after.server.statePts userId ⟨pts, messageIds.length, 0⟩ := by
  unfold Db.updReadMessagesContents at done
  obtain ⟨⟨counted, newPts⟩, added, rest⟩ := (bind_eq_ok _).mp done
  rw [Db.addPts] at added
  split at added
  · cases added
  · rename_i before known
    cases added
    cases rest
    refine ⟨Function.update_self _ _ _, ?_⟩
    rw [known, Updates.State.addPts_of_nonneg before (Int.natCast_nonneg _), Int.add_sub_cancel]

/-- `upd.delete_messages` accounts for the identifiers it has for the caller. -/
theorem updDeleteMessages_result {messages : OrderedDict Nat (List Nat)}
    (done : db.updDeleteMessages userId messages = .ok (after, pts)) :
    ∃ ids, messages.lookup userId = some ids ∧
      Accounts db.server.statePts after.server.statePts userId ⟨pts, ids.length, 0⟩ := by
  rw [Db.updDeleteMessages] at done
  split at done
  · rename_i server newPts deleted
    cases done
    obtain ⟨ids, here, before, raised⟩ := Updates.Manager.deleteMessages_result deleted
    exact ⟨ids, here, raised, before⟩
  · cases done

theorem accounts_iff_ptsCount {before : State.Counters} {after : State.Counters} {answer : Affected}
    (accounts : Accounts before after userId answer) (ptsCount : Int) (offset : Nat) :
    Accounts before after userId ⟨answer.pts, ptsCount, offset⟩ ↔ ptsCount = answer.ptsCount := by
  constructor
  · intro other
    have same := Option.some.inj (accounts.ptsCount.symm.trans other.ptsCount)
    simp only at same
    omega
  · rintro rfl
    exact ⟨accounts.pts, accounts.ptsCount⟩

end Counters

section Handlers

variable {db after : Db} {userId : Nat} {answer : Affected}

private theorem length_messages (request : DeleteMessages) :
    ((request.messages db userId).entries.flatMap Sigma.snd).length =
      (request.doomed db userId).length := by
  unfold DeleteMessages.messages
  split
  · have spread := (OrderedDict.perm_appendAll (∅ : OrderedDict Nat (List Nat))
      (ownerIds (request.doomed db userId))).length_eq
    simpa [ownerIds] using spread
  · simp [OrderedDict.setItem, OrderedDict.setEntry]

private theorem lookup_messages (request : DeleteMessages) {ids : List Nat}
    (found : (request.messages db userId).lookup userId = some ids) :
    ids.length = ((request.doomed db userId).filter fun r => r.peer.ownerId = userId).length := by
  unfold DeleteMessages.messages at found
  split at found
  · rw [OrderedDict.lookup_appendAll] at found
    split at found
    · rw [AList.lookup_empty] at found
      cases found
    · cases found
      rw [AList.lookup_empty, Option.getD_none, List.nil_append, List.length_map, ownerIds,
        List.filter_map, List.length_map]
      rfl
  · rename_i alone
    rw [OrderedDict.lookup_setItem, if_pos rfl] at found
    cases found
    have all : (request.doomed db userId).filter (fun r => r.peer.ownerId = userId) =
        request.doomed db userId := by
      refine List.filter_eq_self.mpr fun r listed => ?_
      unfold DeleteMessages.doomed at listed
      rw [if_neg alone] at listed
      obtain ⟨-, own⟩ := List.mem_filter.mp listed
      simp only [Bool.and_eq_true, beq_iff_eq] at own
      exact decide_eq_true own.2
    rw [all, List.length_map]

theorem deleteMessages_accounts_iff {request : DeleteMessages}
    (done : deleteMessages db userId request = .ok (after, answer)) :
    Accounts db.server.statePts after.server.statePts userId answer ↔
      ∀ r ∈ request.doomed db userId, r.peer.ownerId = userId := by
  unfold deleteMessages at done
  simp only at done
  split at done
  · rename_i nothing
    obtain ⟨⟨counted, pts⟩, added, rest⟩ := (bind_eq_ok _).mp done
    cases rest
    have none : (request.doomed db userId).length = 0 := by
      rw [← length_messages, nothing]
      rfl
    rw [List.length_eq_zero_iff] at none
    refine iff_of_true (addPts_zero added) ?_
    rw [none]
    exact fun r listed => absurd listed List.not_mem_nil
  · obtain ⟨⟨counted, pts⟩, deleted, rest⟩ := (bind_eq_ok _).mp done
    cases rest
    obtain ⟨ids, found, accounts⟩ := updDeleteMessages_result deleted
    refine (accounts_iff_ptsCount accounts _ 0).trans ?_
    rw [length_messages, lookup_messages request found]
    simp only [Nat.cast_inj]
    rw [eq_comm, List.length_filter_eq_length_iff]
    simp only [decide_eq_true_eq]

theorem deleteSavedHistory_accounts {request : DeleteSavedHistory}
    (done : deleteSavedHistory db userId request = .ok (after, answer)) :
    Accounts db.server.statePts after.server.statePts userId answer := by
  unfold deleteSavedHistory at done
  obtain ⟨peer, -, done⟩ := (bind_eq_ok _).mp done
  simp only at done
  split at done
  · obtain ⟨⟨counted, pts⟩, added, rest⟩ := (bind_eq_ok _).mp done
    cases rest
    exact addPts_zero added
  · obtain ⟨⟨counted, pts⟩, deleted, rest⟩ := (bind_eq_ok _).mp done
    cases rest
    obtain ⟨ids, found, accounts⟩ := updDeleteMessages_result deleted
    rw [OrderedDict.lookup_setItem, if_pos rfl] at found
    cases found
    exact ⟨accounts.pts, accounts.ptsCount⟩

private theorem closeHistory_statePts {peer : Peer} {offsetId : Nat}
    (closed : closeHistory db userId peer offsetId = .ok after) :
    after.server.statePts userId = db.server.statePts userId := by
  unfold closeHistory leaveChat at closed
  split at closed
  · split at closed
    · unfold Db.updUpdateChat at closed
      simp only at closed
      split at closed
      · cases closed
      · rename_i statePts ptss added
        cases closed
        refine Updates.State.addCounts_of_notMem ?_ (Updates.State.addPtsBulk_some added).1
        intro listed
        obtain ⟨⟨user, count⟩, paired, rfl⟩ := List.mem_map.mp listed
        obtain ⟨p, member, own⟩ := List.mem_map.mp (List.of_mem_zip paired).1
        obtain ⟨stays, here⟩ := List.mem_filter.mp member
        obtain ⟨-, kept⟩ := List.mem_filter.mp stays
        simp only [Bool.and_eq_true, beq_iff_eq] at here
        simp [here.1, own] at kept
    · cases closed
      rfl
  · cases closed
    rfl

theorem deleteHistory_accounts {request : DeleteHistory}
    (done : deleteHistory db userId request = .ok (after, answer)) :
    Accounts db.server.statePts after.server.statePts userId answer := by
  unfold deleteHistory at done
  obtain ⟨peer, -, done⟩ := (bind_eq_ok _).mp done
  obtain ⟨-, done⟩ := check_bind_eq_ok.mp done
  simp only at done
  split at done
  · obtain ⟨⟨counted, pts⟩, added, rest⟩ := (bind_eq_ok _).mp done
    cases rest
    exact addPts_zero added
  · obtain ⟨⟨deleted, pts⟩, announced, rest⟩ := (bind_eq_ok _).mp done
    obtain ⟨left, closed, rest⟩ := (bind_eq_ok _).mp rest
    cases rest
    obtain ⟨ids, found, accounts⟩ := updDeleteMessages_result announced
    rw [found]
    exact ⟨(closeHistory_statePts closed).trans accounts.pts, accounts.ptsCount⟩

private theorem readMessageContentsInternal_server {validRefs : List MessageRef}
    {result : Option (List Nat)}
    (found : readMessageContentsInternal db userId validRefs = (after, result)) :
    after.server = db.server := by
  unfold readMessageContentsInternal at found
  simp only at found
  split at found <;> cases found <;> rfl

theorem readMessageContents_accounts {ids : List Nat}
    (done : readMessageContents db userId ids = .ok (after, answer)) :
    Accounts db.server.statePts after.server.statePts userId answer := by
  unfold readMessageContents at done
  split at done
  · obtain ⟨⟨counted, pts⟩, added, rest⟩ := (bind_eq_ok _).mp done
    cases rest
    exact addPts_zero added
  · simp only at done
    split at done
    · rename_i nothing
      obtain ⟨⟨counted, pts⟩, added, rest⟩ := (bind_eq_ok _).mp done
      cases rest
      rw [← readMessageContentsInternal_server nothing]
      exact addPts_zero added
    · rename_i found
      obtain ⟨⟨counted, pts⟩, announced, rest⟩ := (bind_eq_ok _).mp done
      cases rest
      rw [← readMessageContentsInternal_server found]
      exact updReadMessagesContents_accounts announced

theorem readMentions_accounts {peerId : Nat}
    (done : readMentions db userId peerId = .ok (after, answer)) :
    Accounts db.server.statePts after.server.statePts userId answer := by
  unfold readMentions at done
  obtain ⟨peer, -, done⟩ := (bind_eq_ok _).mp done
  split at done
  · simp only at done
    split at done
    · obtain ⟨⟨counted, pts⟩, added, rest⟩ := (bind_eq_ok _).mp done
      cases rest
      exact addPts_zero added
    · obtain ⟨⟨read, pts⟩, announced, rest⟩ := (bind_eq_ok _).mp done
      cases rest
      have accounts := updReadMessagesContents_accounts announced
      exact accounts
  · obtain ⟨⟨counted, pts⟩, added, rest⟩ := (bind_eq_ok _).mp done
    cases rest
    exact addPts_zero added

/-- The owners of the peers that `upd.pin_messages` gets are those of the references. -/
private theorem owner_byPeer_iff (refs : List MessageRef) :
    (∃ item ∈ byPeer refs, item.1.ownerId = userId) ↔ ∃ r ∈ refs, r.peer.ownerId = userId := by
  simp only [byPeer, List.mem_map, List.mem_dedup]
  constructor
  · rintro ⟨item, ⟨p, ⟨r, listed, rfl⟩, rfl⟩, own⟩
    exact ⟨r, listed, own⟩
  · rintro ⟨r, listed, own⟩
    exact ⟨_, ⟨r.peer, ⟨r, listed, rfl⟩, rfl⟩, own⟩

theorem unpinAllMessages_accounts_iff {peerId : Nat}
    (done : unpinAllMessages db userId peerId = .ok (after, answer)) :
    Accounts db.server.statePts after.server.statePts userId answer ↔
      ∀ peer ∈ db.peers.get peerId, pinnedRefs db peer = [] ∨
        (∃ r ∈ pinnedRefs db peer, r.peer.ownerId = userId) ∨
          db.server.statePts userId = some 0 := by
  unfold unpinAllMessages at done
  obtain ⟨peer, resolved, done⟩ := (bind_eq_ok _).mp done
  obtain ⟨-, done⟩ := check_bind_eq_ok.mp done
  have here := (db.fromInputPeerRaise_eq_ok resolved).1
  simp only [here, Option.mem_some_iff, forall_eq']
  simp only at done
  split at done
  · rename_i nothing
    obtain ⟨⟨counted, pts⟩, added, rest⟩ := (bind_eq_ok _).mp done
    cases rest
    exact iff_of_true (addPts_zero added) (.inl nothing)
  · rename_i something
    split at done
    · split at done
      · cases done
      · rename_i owners server pts ptsCount updates pinned
        cases done
        have owner : (∃ item ∈ byPeer ((pinnedRefs db peer).map MessageRef.unpin),
            item.1.ownerId = userId) ↔ ∃ r ∈ pinnedRefs db peer, r.peer.ownerId = userId := by
          rw [owner_byPeer_iff]
          simp [MessageRef.unpin]
        rcases Updates.Manager.pinMessages_result pinned with
          ⟨item, member, own, -, before, raised⟩ | ⟨nobody, rfl, rfl, same⟩
        · exact iff_of_true ⟨raised, before⟩ (.inr (.inl (owner.mp ⟨item, member, own⟩)))
        · have other : ¬ ∃ r ∈ pinnedRefs db peer, r.peer.ownerId = userId := by
            rw [← owner]
            rintro ⟨item, member, own⟩
            exact nobody item member own
          simp only [something, other, false_or]
          constructor
          · intro accounts
            exact accounts.ptsCount
          · intro zero
            exact ⟨same.trans zero, zero⟩
    · cases done

end Handlers

/-- An answer accounts for the caller exactly when only the caller's own references count. -/
theorem accounts_iff_countsOwn {db after : Db} {userId : Nat} {request : AffectingRequest}
    {answer : Affected} (done : request.handle db userId = .ok (after, answer)) :
    Accounts db.server.statePts after.server.statePts userId answer ↔
      request.CountsOwn db userId := by
  cases request with
  | deleteMessages request => exact deleteMessages_accounts_iff done
  | deleteHistory request => exact iff_of_true (deleteHistory_accounts done) trivial
  | deleteSavedHistory request => exact iff_of_true (deleteSavedHistory_accounts done) trivial
  | unpinAllMessages peerId => exact unpinAllMessages_accounts_iff done
  | readMessageContents ids => exact iff_of_true (readMessageContents_accounts done) trivial
  | readMentions peerId => exact iff_of_true (readMentions_accounts done) trivial

/-- Users 1 and 2 have one message in common, pinned by user 2 alone. -/
def sampleDb : Db where
  bots := []
  peers := ⟨[⟨10, 1, .user 2, false⟩, ⟨20, 2, .user 1, false⟩], by decide⟩
  chats := Table.empty
  participants := []
  contents := ⟨[⟨5, .regular, some 1, false, false, 0, none⟩], by decide⟩
  refs := ⟨[⟨100, ⟨10, 1, .user 2, false⟩, 5, false, 0⟩, ⟨101, ⟨20, 2, .user 1, false⟩, 5, true, 0⟩],
    by decide⟩
  mentions := Table.empty
  mediaReads := []
  server := ⟨fun user => if user = 1 then some 7 else if user = 2 then some 3 else none, [], []⟩
  otherPushed := []

/-- Deleting the own reference only. -/
theorem accounts_iff_countsOwn_sample : ∃ after answer,
    AffectingRequest.handle sampleDb 1 (.deleteMessages ⟨[100], false⟩) = .ok (after, answer) ∧
      Accounts sampleDb.server.statePts after.server.statePts 1 answer := by
  obtain ⟨⟨after, answer⟩, done⟩ : ∃ result,
      AffectingRequest.handle sampleDb 1 (.deleteMessages ⟨[100], false⟩) = .ok result := ⟨_, rfl⟩
  exact ⟨after, answer, done, (accounts_iff_countsOwn done).mpr (by decide)⟩

/-- Deleting a message for both counts the other user's reference too. -/
theorem revoked_reference_counted : ∃ after answer,
    AffectingRequest.handle sampleDb 1 (.deleteMessages ⟨[100], true⟩) = .ok (after, answer) ∧
      after.server.statePts 1 = some 8 ∧ answer.ptsCount = 2 ∧
      ¬ Accounts sampleDb.server.statePts after.server.statePts 1 answer := by
  refine ⟨_, ⟨8, 2, 0⟩, rfl, rfl, rfl, ?_⟩
  intro accounts
  exact absurd accounts.ptsCount (by decide)

end Piltover.Messages
