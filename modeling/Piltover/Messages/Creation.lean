/- source: piltover/db/models/message_ref.py, piltover/app/handlers/messages/sending.py
   digest: New messages of a basic group: the references that they get and the updates. -/

import Piltover.Messages.Reading

set_option autoImplicit false

namespace Piltover.Messages

open Piltover.Foundation
open Piltover.Updates (Manager.Push Manager.Part)

/-- What `create_for_peer` is told about a message. -/
structure Draft where
  authorId : Nat
  type : MessageType
  date : Int
  readableMedia : Bool
  randomId : Option Int
  opposite : Bool
  deriving DecidableEq, Repr

def MessageType.isService : MessageType → Bool
  | .service _ => true
  | _ => false

def raisedBy {α : Type} : Except Failure α → Option Failure
  | .error failure => some failure
  | .ok _ => none

namespace Db

variable (db : Db)

/-- `Peer.get_opposite` for a peer of type `PeerType.CHAT`. -/
def getOpposite (chatId ownerId : Nat) : List Peer :=
  db.peers.rows.filter fun other => other.ownerId != ownerId && other.target == .chat chatId

/-- `MessageRef.create`. -/
def createRef (peer : Peer) (contentId : Nat) (pinned : Bool) : Db × MessageRef :=
  let ref : MessageRef := ⟨db.refs.nextKey, peer, contentId, pinned, 0⟩
  ({ db with refs := db.refs.insert ref }, ref)

/-- `MessageRef.bulk_create` with a peer, a content and whether it is pinned for each. -/
def createRefs (db : Db) : List (Peer × Nat × Bool) → Db × List MessageRef
  | [] => (db, [])
  | (peer, contentId, pinned) :: rest =>
    let (db, ref) := db.createRef peer contentId pinned
    let (db, refs) := db.createRefs rest
    (db, ref :: refs)

/-- `MessageRef.create_for_peer` in a basic group. -/
def createForPeer (peer : Peer) (chatId : Nat) (draft : Draft) : Db × List MessageRef :=
  let content : MessageContent :=
    ⟨db.contents.nextKey, draft.type, some draft.authorId, false, draft.readableMedia, draft.date,
      none⟩
  let peers := peer :: if draft.opposite then db.getOpposite chatId peer.ownerId else []
  let db := { db with contents := db.contents.insert content }
  db.createRefs (peers.map fun p => (p, content.id, false))

/-- The reference as `upd.send_message` reads it; only the sender's has the random identifier. -/
def draftedRef (sender : Peer) (draft : Draft) (r : MessageRef) :
    Updates.Manager.Peer × Updates.Manager.MessageRef :=
  (r.peer.forManager,
    { r.forManager with
      randomId := if r.peer = sender then draft.randomId else none
      service := draft.type.isService })

/-- `upd.send_message`. -/
def updSendMessage (userId : Nat) (sender : Peer) (draft : Draft) (refs : List MessageRef) :
    Ended Db :=
  let items := refs.map (draftedRef sender draft)
  -- The peers of one group belong to different users.
  if owners : (items.map fun item => item.1.ownerId).Nodup then
    match db.server.sendMessage (some userId) ⟨items, owners⟩ true none with
    | none => ⟨db, some .other⟩
    | some (server, result) => ⟨{ db with server := server }, raisedBy result⟩
  else ⟨db, some .other⟩

/-- `upd.send_messages` with the messages of one peer, none of them of service. -/
def updSendMessages (peer : Peer) (refs : List MessageRef) : Ended Db :=
  match db.server.sendMessages ⟨[(peer.forManager, refs.map MessageRef.forManager)],
    List.nodup_singleton _⟩ none [] with
  | none => ⟨db, some .other⟩
  | some (server, result) => ⟨{ db with server := server }, raisedBy result⟩

end Db

structure SameGroups (db after : Db) : Prop where
  chats : after.chats = db.chats
  peers : after.peers = db.peers
  participants : after.participants = db.participants

theorem SameGroups.refl (db : Db) : SameGroups db db := ⟨rfl, rfl, rfl⟩

theorem SameGroups.trans {db middle after : Db} (first : SameGroups db middle)
    (second : SameGroups middle after) : SameGroups db after :=
  ⟨second.chats.trans first.chats, second.peers.trans first.peers,
    second.participants.trans first.participants⟩

section References

variable {db : Db} {peer : Peer} {drafts : List (Peer × Nat × Bool)}

theorem createRefs_sameGroups : SameGroups db (db.createRefs drafts).1 := by
  induction drafts generalizing db with
  | nil => exact .refl db
  | cons first rest ih =>
    have here : SameGroups db (db.createRef first.1 first.2.1 first.2.2).1 := ⟨rfl, rfl, rfl⟩
    exact here.trans ih

theorem createRefs_server : (db.createRefs drafts).1.server = db.server := by
  induction drafts generalizing db with
  | nil => rfl
  | cons first rest ih => exact ih

theorem createRefs_peers :
    (db.createRefs drafts).2.map MessageRef.peer = drafts.map Prod.fst := by
  induction drafts generalizing db with
  | nil => rfl
  | cons first rest ih => exact congrArg (first.1 :: ·) ih

theorem createRefs_contents : (db.createRefs drafts).1.contents = db.contents := by
  induction drafts generalizing db with
  | nil => rfl
  | cons first rest ih => exact ih

theorem createRefs_contentIds :
    (db.createRefs drafts).2.map MessageRef.contentId = drafts.map fun draft => draft.2.1 := by
  induction drafts generalizing db with
  | nil => rfl
  | cons first rest ih => exact congrArg (first.2.1 :: ·) ih

theorem createRefs_rows :
    (db.createRefs drafts).1.refs.rows = db.refs.rows ++ (db.createRefs drafts).2 := by
  induction drafts generalizing db with
  | nil => exact (List.append_nil _).symm
  | cons first rest ih =>
    have inserted : (db.createRef first.1 first.2.1 first.2.2).1.refs.rows =
        db.refs.rows ++ [(db.createRef first.1 first.2.1 first.2.2).2] :=
      Table.rows_insert db.refs.get_nextKey
    have later := @ih (db.createRef first.1 first.2.1 first.2.2).1
    rw [inserted, List.append_assoc] at later
    exact later

theorem createRefs_ascending :
    (db.createRefs drafts).2.Pairwise (fun r s => r.id < s.id) ∧
      ∀ r ∈ db.refs, ∀ s ∈ (db.createRefs drafts).2, r.id < s.id := by
  induction drafts generalizing db with
  | nil => exact ⟨.nil, fun r here s created => by cases created⟩
  | cons first rest ih =>
    obtain ⟨ascending, above⟩ := @ih (db.createRef first.1 first.2.1 first.2.2).1
    have inserted : ∀ r, r ∈ (db.createRef first.1 first.2.1 first.2.2).1.refs ↔
        r ∈ db.refs ∨ r = (db.createRef first.1 first.2.1 first.2.2).2 := fun r =>
      Table.mem_insert db.refs.get_nextKey
    refine ⟨List.pairwise_cons.mpr ⟨fun s later => above _ ((inserted _).mpr (.inr rfl)) s later,
      ascending⟩, fun r here s created => ?_⟩
    rcases List.mem_cons.mp created with rfl | later
    · exact Table.lt_nextKey _ here
    · exact above r ((inserted r).mpr (.inl here)) s later

theorem mem_createRefs {r : MessageRef} : r ∈ (db.createRefs drafts).1.refs ↔
    r ∈ db.refs ∨ r ∈ (db.createRefs drafts).2 := by
  rw [Table.mem_def, createRefs_rows, List.mem_append, Table.mem_def]

theorem id_pos_of_createRefs {r : MessageRef} (created : r ∈ (db.createRefs drafts).2) :
    0 < r.id := by
  induction drafts generalizing db with
  | nil => cases created
  | cons first rest ih =>
    rcases List.mem_cons.mp created with rfl | later
    · exact Nat.succ_pos _
    · exact ih later

theorem createRefs_refIds (positive : ∀ r ∈ db.refs, 0 < r.id) :
    ∀ r ∈ (db.createRefs drafts).1.refs, 0 < r.id := by
  intro r here
  rcases mem_createRefs.mp here with old | created
  · exact positive r old
  · exact id_pos_of_createRefs created

variable {chatId : Nat} {draft : Draft}

theorem createForPeer_sameGroups : SameGroups db (db.createForPeer peer chatId draft).1 :=
  ⟨createRefs_sameGroups.chats, createRefs_sameGroups.peers, createRefs_sameGroups.participants⟩

theorem createForPeer_server : (db.createForPeer peer chatId draft).1.server = db.server :=
  createRefs_server

theorem peer_of_createForPeer {r : MessageRef} (created : r ∈ (db.createForPeer peer chatId draft).2) :
    r.peer = peer ∨ (r.peer ∈ db.peers ∧ r.peer.target = .chat chatId) := by
  have listed : r.peer ∈ (db.createForPeer peer chatId draft).2.map MessageRef.peer :=
    List.mem_map_of_mem created
  unfold Db.createForPeer at listed
  simp only [createRefs_peers, List.map_map, Function.comp_def, List.map_id', List.mem_cons]
    at listed
  refine listed.imp_right fun other => ?_
  split at other
  · obtain ⟨here, chosen⟩ := List.mem_filter.mp other
    simp only [Bool.and_eq_true, beq_iff_eq] at chosen
    exact ⟨here, chosen.2⟩
  · cases other

theorem createForPeer_refIds (positive : ∀ r ∈ db.refs, 0 < r.id) :
    ∀ r ∈ (db.createForPeer peer chatId draft).1.refs, 0 < r.id :=
  createRefs_refIds positive

theorem mem_createForPeer {r : MessageRef} : r ∈ (db.createForPeer peer chatId draft).1.refs ↔
    r ∈ db.refs ∨ r ∈ (db.createForPeer peer chatId draft).2 :=
  mem_createRefs

end References

section Updates

variable {db : Db} {userId : Nat} {sender : Peer} {draft : Draft} {refs : List MessageRef}

theorem updSendMessage_frame :
    SameGroups db (db.updSendMessage userId sender draft refs).left ∧
      (db.updSendMessage userId sender draft refs).left.refs = db.refs := by
  unfold Db.updSendMessage
  dsimp only
  split
  · split <;> exact ⟨⟨rfl, rfl, rfl⟩, rfl⟩
  · exact ⟨⟨rfl, rfl, rfl⟩, rfl⟩

theorem updSendMessages_frame {peer : Peer} :
    SameGroups db (db.updSendMessages peer refs).left ∧
      (db.updSendMessages peer refs).left.refs = db.refs := by
  unfold Db.updSendMessages
  split <;> exact ⟨⟨rfl, rfl, rfl⟩, rfl⟩

theorem updSendMessage_pushed : ∃ pushes,
    (db.updSendMessage userId sender draft refs).left.server.pushed = db.server.pushed ++ pushes ∧
      ∀ push ∈ pushes, ∃ r ∈ refs, r.peer.ownerId = push.userId := by
  have quiet : ∃ pushes, db.server.pushed = db.server.pushed ++ pushes ∧
      ∀ push ∈ pushes, ∃ r ∈ refs, r.peer.ownerId = push.userId :=
    ⟨[], (List.append_nil _).symm, fun push listed => by cases listed⟩
  unfold Db.updSendMessage
  dsimp only
  split
  · split
    · exact quiet
    · rename_i server result sent
      rw [Updates.Manager.Server.sendMessage] at sent
      split at sent
      · cases sent
      · split at sent
        · cases sent
        · rename_i announced
          cases sent
          refine ⟨_, Updates.Manager.announce_pushed announced, fun push listed => ?_⟩
          obtain ⟨part, made, told⟩ := List.mem_flatMap.mp listed
          simp only [List.map_map, List.mem_map, Function.comp_apply] at made
          obtain ⟨r, there, rfl⟩ := made
          refine ⟨r, there, ?_⟩
          simp only [Updates.Manager.sendMessagePart] at told
          split at told
          · cases told
          · cases List.mem_singleton.mp told
            rfl
  · exact quiet

end Updates

end Piltover.Messages
