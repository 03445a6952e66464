/- source: piltover/db/models/peer.py, piltover/db/models/message_ref.py,
     piltover/app/handlers/messages/sending.py, piltover/app/handlers/messages/chats.py,
     piltover/app/handlers/messages/saved_dialogs.py, piltover/app/handlers/internal.py
   digest: When the last message of a peer is the newest one that it has. -/

import Mathlib.Data.List.Induction
import Piltover.Foundation.Runs
import Piltover.Peers.LastMessage

set_option autoImplicit false

namespace Piltover.Peers

open Piltover.Foundation
open Piltover.Foundation.Paging
open Piltover.Foundation.Runs

namespace Db

variable (db : Db) (peerId : Nat)

/-- The newest message of the peer that is not scheduled. -/
def lastMessage : Option MessageRef :=
  db.newestRef fun r => r.peerId == peerId && r.content.type != .scheduled

/-- The peer is stored with its last message, if there is such a peer. -/
def ExactAt : Prop :=
  ∀ p ∈ db.peers, p.id = peerId →
    p.lastMessageId = (db.lastMessage peerId).map MessageRef.id ∧
      p.lastMessageDate = (db.lastMessage peerId).map fun r => r.content.date

/-- What is deleted of the peer leaves it a newest row that is not scheduled, or leaves it nothing
and it had only scheduled messages. -/
def LeavesMessage (doomed : MessageRef → Bool) : Prop :=
  (∃ r ∈ db.refs, r.peerId = peerId ∧ doomed r = true) →
    match db.newestRef fun r => r.peerId == peerId && !doomed r with
    | some r => r.content.type ≠ .scheduled
    | none => db.lastMessage peerId = none

/-- When a step keeps the last message of the peer: nothing scheduled is created in it, and what is
deleted without a look at the peers is not its last message. -/
def KeepsAt : Event → Prop
  | .createForPeer id opposite type _ => type = .scheduled →
      ∀ peer, db.peers.get id = some peer → peerId ∉ (db.recipients peer opposite).2
  | .forwardForPeers messageId peerIds _ _ _ =>
    ∀ ref, db.refs.get messageId = some ref → ref.content.type = .scheduled →
      ∀ p ∈ db.peers, p.id = peerId → peerId ∉ peerIds
  | .deleteMessages userId ids revoke =>
    db.LeavesMessage peerId (db.revoked userId ids revoke)
  | .deleteHistory r => ∀ peer, r.peer db = some peer →
      (r.leaves db peer = true ∧ peer.id = peerId) ∨
        ∀ m, db.lastMessage peerId = some m → m.content.id ∉ r.contentIds db ∧
          (r.leaves db peer = true → m.content.savedPeerId ≠ some peer.id)
  | .deleteSavedHistory r => r.found db = true →
      ∀ m, db.lastMessage peerId = some m → m.id ∉ r.ids db
  | .deleteScheduledMessage contentId =>
    ∀ m, db.lastMessage peerId = some m → m.content.id ≠ contentId
  | _ => True

/-- New identifiers are new, and every row has its peer. -/
structure Formed : Prop where
  refs : ∀ r ∈ db.refs, r.id < db.nextRef
  peers : ∀ p ∈ db.peers, p.id < db.nextPeer
  owners : ∀ r ∈ db.refs, ∃ p ∈ db.peers, p.id = r.peerId

end Db

/-! ### The newest row -/

namespace Db

variable {db after : Db} {peerId : Nat} {wanted wanted' doomed : MessageRef → Bool}
  {r : MessageRef} {ids : List Nat} {rows : List (Nat × MessageContent)} {type : MessageType}

theorem newestRef_eq_some_iff : db.newestRef wanted = some r ↔
    r ∈ db.refs ∧ wanted r = true ∧ ∀ s ∈ db.refs, wanted s = true → s.id ≤ r.id := by
  constructor
  · intro found
    obtain ⟨rest, taken⟩ := List.head?_eq_some_iff.mp found
    obtain ⟨-, listed, greatest⟩ := head_newest taken
    obtain ⟨here, fits⟩ := List.mem_filter.mp listed
    exact ⟨here, fits, fun s there also => greatest s (List.mem_filter.mpr ⟨there, also⟩)⟩
  · rintro ⟨here, fits, greatest⟩
    rw [newestRef, newest_one (List.mem_filter.mpr ⟨here, fits⟩) ?_ (db.refs.nodup_filter wanted)]
    · rfl
    · intro s listed
      obtain ⟨there, also⟩ := List.mem_filter.mp listed
      exact greatest s there also

theorem newestRef_eq_none_iff : db.newestRef wanted = none ↔
    ∀ r ∈ db.refs, wanted r = false := by
  rw [newestRef, List.head?_eq_none_iff, newest_one_eq_nil_iff, List.filter_eq_nil_iff]
  exact forall₂_congr fun r _ => iff_of_eq (Bool.not_eq_true _)

theorem newestRef_congr (same : ∀ r, r ∈ after.refs ∧ wanted' r = true ↔
    r ∈ db.refs ∧ wanted r = true) : after.newestRef wanted' = db.newestRef wanted := by
  cases found : db.newestRef wanted with
  | none =>
    rw [newestRef_eq_none_iff] at found ⊢
    intro r here
    by_contra asked
    obtain ⟨there, also⟩ := (same r).mp ⟨here, eq_true_of_ne_false asked⟩
    rw [found r there] at also
    cases also
  | some r =>
    obtain ⟨here, fits, greatest⟩ := newestRef_eq_some_iff.mp found
    obtain ⟨there, also⟩ := (same r).mpr ⟨here, fits⟩
    refine newestRef_eq_some_iff.mpr ⟨there, also, fun s listed asked => ?_⟩
    obtain ⟨old, was⟩ := (same s).mp ⟨listed, asked⟩
    exact greatest s old was

theorem lastRef_eq_some_iff : db.lastRef peerId = some r ↔
    r ∈ db.refs ∧ r.peerId = peerId ∧ ∀ s ∈ db.refs, s.peerId = peerId → s.id ≤ r.id := by
  rw [lastRef, newestRef_eq_some_iff]
  simp only [beq_iff_eq]

theorem lastMessage_eq_some_iff : db.lastMessage peerId = some r ↔
    r ∈ db.refs ∧ (r.peerId = peerId ∧ r.content.type ≠ .scheduled) ∧
      ∀ s ∈ db.refs, s.peerId = peerId → s.content.type ≠ .scheduled → s.id ≤ r.id := by
  rw [lastMessage, newestRef_eq_some_iff]
  simp only [Bool.and_eq_true, beq_iff_eq, bne_iff_ne, and_imp]

theorem lastMessage_eq_none_iff : db.lastMessage peerId = none ↔
    ∀ r ∈ db.refs, r.peerId = peerId → r.content.type = .scheduled := by
  rw [lastMessage, newestRef_eq_none_iff]
  refine forall₂_congr fun r _ => ?_
  rw [Bool.and_eq_false_iff, beq_eq_false_iff_ne, bne_eq_false_iff_eq, imp_iff_not_or]

theorem lastMessage_of_lastRef (last : db.lastRef peerId = some r)
    (sent : r.content.type ≠ .scheduled) : db.lastMessage peerId = some r := by
  obtain ⟨here, named, greatest⟩ := lastRef_eq_some_iff.mp last
  exact lastMessage_eq_some_iff.mpr ⟨here, ⟨named, sent⟩, fun s there also _ =>
    greatest s there also⟩

theorem lastMessage_of_lastRef_none (last : db.lastRef peerId = none) :
    db.lastMessage peerId = none := by
  rw [lastRef, newestRef_eq_none_iff] at last
  rw [lastMessage, newestRef_eq_none_iff]
  intro r here
  rw [last r here, Bool.false_and]

end Db

/-! ### What does not concern a peer -/

namespace Db

variable {db middle after : Db} {peerId : Nat} {ids : List Nat}
  {rows : List (Nat × MessageContent)} {doomed : MessageRef → Bool}

structure SameAt (peerId : Nat) (db after : Db) : Prop where
  rows : ∀ r : MessageRef, r.peerId = peerId → (r ∈ after.refs ↔ r ∈ db.refs)
  peers : ∀ p ∈ after.peers, p.id = peerId → ∃ q ∈ db.peers, q.id = peerId ∧
    p.lastMessageId = q.lastMessageId ∧ p.lastMessageDate = q.lastMessageDate

theorem SameAt.refl (peerId : Nat) (db : Db) : SameAt peerId db db :=
  ⟨fun _ _ => Iff.rfl, fun p here named => ⟨p, here, named, rfl, rfl⟩⟩

theorem SameAt.trans (first : SameAt peerId db middle) (second : SameAt peerId middle after) :
    SameAt peerId db after := by
  refine ⟨fun r named => (second.rows r named).trans (first.rows r named), ?_⟩
  intro p here named
  obtain ⟨q, there, also, id, date⟩ := second.peers p here named
  obtain ⟨o, was, old, id', date'⟩ := first.peers q there also
  exact ⟨o, was, old, id.trans id', date.trans date'⟩

theorem SameAt.lastMessage (same : SameAt peerId db after) :
    after.lastMessage peerId = db.lastMessage peerId := by
  refine newestRef_congr fun r => ?_
  simp only [Bool.and_eq_true, beq_iff_eq]
  constructor
  · rintro ⟨here, named, sent⟩
    exact ⟨(same.rows r named).mp here, named, sent⟩
  · rintro ⟨here, named, sent⟩
    exact ⟨(same.rows r named).mpr here, named, sent⟩

theorem SameAt.exactAt (same : SameAt peerId db after) (exact : db.ExactAt peerId) :
    after.ExactAt peerId := by
  intro p here named
  obtain ⟨q, there, also, id, date⟩ := same.peers p here named
  rw [same.lastMessage, id, date]
  exact exact q there also

theorem sameAt_createRef {other : Nat} {content : MessageContent} (fresh : ∀ r ∈ db.refs,
    r.id < db.nextRef) (foreign : other ≠ peerId) :
    SameAt peerId db (db.createRef other content) where
  rows r named := by
    have grown : r ∈ (db.createRef other content).refs ↔
        r ∈ db.refs ∨ r = ⟨db.nextRef, other, content⟩ :=
      Table.mem_insert (Table.get_eq_none_iff.mpr fun s here => Nat.ne_of_lt (fresh s here))
    rw [grown, or_iff_left]
    rintro rfl
    exact foreign named
  peers p here named := ⟨p, here, named, rfl, rfl⟩

theorem mem_sync {p : Peer} : p ∈ (db.syncLastMessageBulk ids).peers ↔
    ∃ q ∈ db.peers, (if ids.contains q.id then db.synced q else q) = p := by
  have synced : p ∈ (db.syncLastMessageBulk ids).peers ↔
      p ∈ db.peers.modify (fun p => ids.contains p.id) db.synced fun _ => rfl := Iff.rfl
  exact synced.trans Table.mem_modify

theorem sameAt_sync (unlisted : peerId ∉ ids) : SameAt peerId db (db.syncLastMessageBulk ids) where
  rows _ _ := Iff.rfl
  peers p here named := by
    obtain ⟨q, there, rfl⟩ := mem_sync.mp here
    split at named
    · rename_i listed
      exact absurd (named ▸ List.contains_iff_mem.mp listed) unlisted
    · rename_i other
      rw [if_neg other]
      exact ⟨q, there, named, rfl, rfl⟩

theorem sameAt_deleteRefs (spared : ∀ r ∈ db.refs, r.peerId = peerId → doomed r = false) :
    SameAt peerId db (db.deleteRefs doomed) where
  rows r named := by
    have kept : r ∈ (db.deleteRefs doomed).refs ↔ r ∈ db.refs ∧ doomed r = false :=
      Table.mem_remove
    rw [kept, and_iff_left_of_imp]
    exact fun here => spared r here named
  peers p here named := ⟨p, here, named, rfl, rfl⟩

theorem sameAt_removePeer {other : Nat} (foreign : other ≠ peerId) :
    SameAt peerId db (db.removePeer other) where
  rows r named := by
    refine (sameAt_deleteRefs fun r _ also => ?_).rows r named
    rw [beq_eq_false_iff_ne, also]
    exact foreign.symm
  peers p here named := by
    have kept : p ∈ db.peers ∧ (p.id == other) = false := Table.mem_remove.mp here
    exact ⟨p, kept.1, named, rfl, rfl⟩

theorem mem_setBlocked {other : Nat} {blocked : Bool} {p : Peer} :
    p ∈ (db.setBlocked other blocked).peers ↔
      ∃ q ∈ db.peers, (if q.id == other then q.setBlocked blocked else q) = p := by
  have changed : p ∈ (db.setBlocked other blocked).peers ↔
      p ∈ db.peers.modify (fun p => p.id == other) (Peer.setBlocked blocked) fun _ => rfl := Iff.rfl
  exact changed.trans Table.mem_modify

theorem sameAt_setBlocked {other : Nat} {blocked : Bool} :
    SameAt peerId db (db.setBlocked other blocked) where
  rows _ _ := Iff.rfl
  peers p here named := by
    obtain ⟨q, there, rfl⟩ := mem_setBlocked.mp here
    refine ⟨q, there, ?_⟩
    split at named
    · rename_i chosen
      rw [if_pos chosen]
      exact ⟨named, rfl, rfl⟩
    · rename_i other
      rw [if_neg other]
      exact ⟨named, rfl, rfl⟩

end Db

/-! ### What concerns it -/

namespace Db

variable {db : Db} {peerId : Nat} {ids : List Nat} {r : MessageRef} {q : Peer}
  {doomed : MessageRef → Bool}

theorem exactAt_sync_iff (listed : peerId ∈ ids) (there : q ∈ db.peers) (named : q.id = peerId)
    (last : db.lastRef peerId = some r) :
    (db.syncLastMessageBulk ids).ExactAt peerId ↔ r.content.type ≠ .scheduled := by
  have kept : (db.syncLastMessageBulk ids).lastMessage peerId = db.lastMessage peerId := rfl
  have set : ∀ o : Peer, o.id = peerId →
      (if ids.contains o.id then db.synced o else o) = db.synced o := fun o same =>
    if_pos (List.contains_iff_mem.mpr (same ▸ listed))
  constructor
  · intro exact scheduled
    have mine := exact (db.synced q) (mem_sync.mpr ⟨q, there, set q named⟩) named
    rw [synced, named, last, kept] at mine
    obtain ⟨s, found, sameId⟩ := Option.map_eq_some_iff.mp mine.1.symm
    obtain ⟨here, ⟨-, sent⟩, -⟩ := lastMessage_eq_some_iff.mp found
    rw [db.refs.eq_of_key_eq here (lastRef_eq_some_iff.mp last).1 sameId] at sent
    exact sent scheduled
  · intro sent p here also
    obtain ⟨o, was, rfl⟩ := mem_sync.mp here
    have same : o.id = peerId := by
      split at also
      · exact also
      · exact also
    rw [set o same, kept, lastMessage_of_lastRef last sent, synced, same, last]
    exact ⟨rfl, rfl⟩

theorem exactAt_sync_none_iff (there : q ∈ db.peers) (named : q.id = peerId)
    (last : db.lastRef peerId = none) : (db.syncLastMessageBulk ids).ExactAt peerId ↔
      q.lastMessageId = none ∧ q.lastMessageDate = none := by
  have kept : (db.syncLastMessageBulk ids).lastMessage peerId = none :=
    lastMessage_of_lastRef_none last
  have unchanged : ∀ o : Peer, o.id = peerId →
      (if ids.contains o.id then db.synced o else o) = o := by
    intro o same
    have empty : db.lastRef o.id = none := by rw [same, last]
    rw [synced, empty]
    split <;> rfl
  constructor
  · intro exact
    have mine := exact q (mem_sync.mpr ⟨q, there, unchanged q named⟩) named
    rwa [kept] at mine
  · intro empty p here also
    obtain ⟨o, was, same⟩ := mem_sync.mp here
    have own : o.id = peerId := by
      rw [← also, ← same]
      split <;> rfl
    rw [unchanged o own] at same
    obtain rfl := db.peers.eq_of_key_eq was there (own.trans named.symm)
    rw [kept, ← same]
    exact empty

theorem exactAt_deleteRefs_iff (owners : ∀ r ∈ db.refs, ∃ p ∈ db.peers, p.id = r.peerId)
    (exact : db.ExactAt peerId) : (db.deleteRefs doomed).ExactAt peerId ↔
      ∀ r, db.lastMessage peerId = some r → doomed r = false := by
  have kept : ∀ r, r ∈ (db.deleteRefs doomed).refs ↔ r ∈ db.refs ∧ doomed r = false :=
    fun r => Table.mem_remove
  constructor
  · intro after r last
    obtain ⟨here, ⟨named, -⟩, -⟩ := lastMessage_eq_some_iff.mp last
    obtain ⟨p, there, owner⟩ := owners r here
    have before := (exact p there (owner.trans named)).1
    rw [(after p there (owner.trans named)).1, last] at before
    obtain ⟨s, found, sameId⟩ := Option.map_eq_some_iff.mp before
    obtain ⟨old, spared⟩ := (kept s).mp (lastMessage_eq_some_iff.mp found).1
    rwa [db.refs.eq_of_key_eq old here sameId] at spared
  · intro spared p there named
    have same : (db.deleteRefs doomed).lastMessage peerId = db.lastMessage peerId := by
      cases last : db.lastMessage peerId with
      | none =>
        rw [lastMessage_eq_none_iff] at last ⊢
        exact fun r here => last r ((kept r).mp here).1
      | some r =>
        obtain ⟨here, sent, greatest⟩ := lastMessage_eq_some_iff.mp last
        exact lastMessage_eq_some_iff.mpr ⟨(kept r).mpr ⟨here, spared r last⟩, sent,
          fun s listed => greatest s ((kept s).mp listed).1⟩
    rw [same]
    exact exact p there named

end Db

/-! ### Creation -/

namespace Db

variable {db : Db} {peerId other : Nat} {ids : List Nat} {r : MessageRef} {peer : Peer}
  {rows : List (Nat × MessageContent)} {type : MessageType} {date : Int}
  {savedPeerId ownerId : Option Nat} {content : MessageContent}

theorem Formed.mem_createRef (formed : db.Formed) : r ∈ (db.createRef other content).refs ↔
    r ∈ db.refs ∨ r = ⟨db.nextRef, other, content⟩ :=
  Table.mem_insert (Table.get_eq_none_iff.mpr fun s here => Nat.ne_of_lt (formed.refs s here))

theorem Formed.createRef (formed : db.Formed) (known : ∃ p ∈ db.peers, p.id = other) :
    (db.createRef other content).Formed where
  refs r here := by
    rcases formed.mem_createRef.mp here with old | rfl
    · exact Nat.lt_succ_of_lt (formed.refs r old)
    · exact Nat.lt_succ_self _
  peers := formed.peers
  owners r here := by
    rcases formed.mem_createRef.mp here with old | rfl
    · exact formed.owners r old
    · exact known

theorem createRefs_concat (row : Nat × MessageContent) : db.createRefs (rows ++ [row]) =
    (db.createRefs rows).createRef row.1 row.2 := by
  rw [createRefs, List.foldl_append]
  rfl

theorem createRefs_peers : (db.createRefs rows).peers = db.peers := by
  induction rows using List.reverseRecOn with
  | nil => rfl
  | append_singleton rows row ih => rw [createRefs_concat]; exact ih

theorem Formed.createRefs (formed : db.Formed)
    (known : ∀ row ∈ rows, ∃ p ∈ db.peers, p.id = row.1) : (db.createRefs rows).Formed := by
  induction rows using List.reverseRecOn with
  | nil => exact formed
  | append_singleton rows row ih =>
    rw [createRefs_concat]
    refine (ih fun row here => known row (List.mem_append_left _ here)).createRef ?_
    rw [createRefs_peers]
    exact known row (List.mem_append_right _ (List.mem_singleton_self row))

theorem nextRef_createRefs_le : db.nextRef ≤ (db.createRefs rows).nextRef := by
  induction rows using List.reverseRecOn with
  | nil => exact Nat.le_refl _
  | append_singleton rows row ih =>
    rw [createRefs_concat]
    exact Nat.le_succ_of_le ih

theorem sameAt_createRefs (formed : db.Formed)
    (known : ∀ row ∈ rows, ∃ p ∈ db.peers, p.id = row.1)
    (foreign : ∀ row ∈ rows, row.1 ≠ peerId) : SameAt peerId db (db.createRefs rows) := by
  induction rows using List.reverseRecOn with
  | nil => exact .refl peerId db
  | append_singleton rows row ih =>
    have known' := fun row here => known row (List.mem_append_left _ here)
    rw [createRefs_concat]
    refine (ih known' fun row here => foreign row (List.mem_append_left _ here)).trans ?_
    exact sameAt_createRef (formed.createRefs known').refs
      (foreign row (List.mem_append_right _ (List.mem_singleton_self row)))

theorem lastRef_createRefs (formed : db.Formed)
    (known : ∀ row ∈ rows, ∃ p ∈ db.peers, p.id = row.1)
    (types : ∀ row ∈ rows, row.2.type = type) (listed : peerId ∈ rows.map Prod.fst) :
    ∃ r, (db.createRefs rows).lastRef peerId = some r ∧ r.content.type = type ∧
      db.nextRef ≤ r.id := by
  induction rows using List.reverseRecOn with
  | nil => cases listed
  | append_singleton rows row ih =>
    have known' := fun row here => known row (List.mem_append_left _ here)
    have before := formed.createRefs known'
    have mem : ∀ r, r ∈ ((db.createRefs rows).createRef row.1 row.2).refs ↔
        r ∈ (db.createRefs rows).refs ∨ r = ⟨(db.createRefs rows).nextRef, row.1, row.2⟩ :=
      fun _ => before.mem_createRef
    rw [createRefs_concat]
    by_cases own : row.1 = peerId
    · refine ⟨⟨(db.createRefs rows).nextRef, row.1, row.2⟩, ?_, ?_, nextRef_createRefs_le⟩
      · refine lastRef_eq_some_iff.mpr ⟨(mem _).mpr (.inr rfl), own, fun s here _ => ?_⟩
        rcases (mem s).mp here with old | rfl
        · exact Nat.le_of_lt (before.refs s old)
        · exact Nat.le_refl _
      · exact types row (List.mem_append_right _ (List.mem_singleton_self row))
    · have earlier : peerId ∈ rows.map Prod.fst := by
        rw [List.map_append, List.mem_append] at listed
        refine listed.resolve_right fun last => ?_
        rw [List.map_singleton, List.mem_singleton] at last
        exact own last.symm
      obtain ⟨r, last, type', new⟩ :=
        ih known' (fun row here => types row (List.mem_append_left _ here)) earlier
      refine ⟨r, ?_, type', new⟩
      rw [← last]
      refine newestRef_congr fun s => ?_
      simp only [beq_iff_eq]
      exact and_congr_left fun named =>
        (sameAt_createRef before.refs own).rows s named

theorem Formed.sync (formed : db.Formed) : (db.syncLastMessageBulk ids).Formed where
  refs := formed.refs
  peers p here := by
    obtain ⟨q, there, rfl⟩ := mem_sync.mp here
    have small := formed.peers q there
    split
    · exact small
    · exact small
  owners r here := by
    obtain ⟨q, there, named⟩ := formed.owners r here
    refine ⟨_, mem_sync.mpr ⟨q, there, rfl⟩, ?_⟩
    split
    · exact named
    · exact named

/-- Rows of one type are created and the peers that get them synced: those are exact where the
rows are not scheduled. -/
theorem exactAt_created_iff (formed : db.Formed)
    (known : ∀ row ∈ rows, ∃ p ∈ db.peers, p.id = row.1)
    (types : ∀ row ∈ rows, row.2.type = type) (same : ∀ id, id ∈ ids ↔ id ∈ rows.map Prod.fst)
    (exact : db.ExactAt peerId) :
    ((db.createRefs rows).syncLastMessageBulk ids).ExactAt peerId ↔
      (type = .scheduled → peerId ∉ ids) := by
  by_cases listed : peerId ∈ ids
  · obtain ⟨r, last, type', -⟩ := lastRef_createRefs formed known types ((same _).mp listed)
    obtain ⟨row, here, rfl⟩ := List.mem_map.mp ((same _).mp listed)
    obtain ⟨q, there, named⟩ := known row here
    have there' : q ∈ (db.createRefs rows).peers := by
      rw [createRefs_peers]
      exact there
    rw [exactAt_sync_iff listed there' named last, type']
    exact not_congr (iff_self_and.mpr fun _ => listed) |>.trans
      ⟨fun apart scheduled _ => apart ⟨scheduled, listed⟩, fun apart both => apart both.1 both.2⟩
  · refine iff_of_true ?_ fun _ => listed
    refine (sameAt_sync listed).exactAt ((sameAt_createRefs formed known ?_).exactAt exact)
    rintro row here rfl
    exact listed ((same _).mpr (List.mem_map_of_mem here))

theorem known_rows (content : MessageContent) (known : ∀ id ∈ ids, ∃ p ∈ db.peers, p.id = id) :
    ∀ row ∈ ids.map fun id => (id, content), ∃ p ∈ db.peers, p.id = row.1 := by
  intro row here
  obtain ⟨id, listed, rfl⟩ := List.mem_map.mp here
  exact known id listed

theorem type_rows (content : MessageContent) :
    ∀ row ∈ ids.map fun id => (id, content), row.2.type = content.type := by
  intro row here
  obtain ⟨id, -, rfl⟩ := List.mem_map.mp here
  rfl

theorem mem_rows (content : MessageContent) {id : Nat} :
    id ∈ ids ↔ id ∈ (ids.map fun id => (id, content)).map Prod.fst := by
  rw [List.map_map, Function.comp_def, List.map_id']

theorem Formed.nextContent (formed : db.Formed) (n : Nat) :
    ({ db with nextContent := n } : Db).Formed :=
  ⟨formed.refs, formed.peers, formed.owners⟩

theorem Formed.createForPeers (formed : db.Formed) (known : ∀ id ∈ ids, ∃ p ∈ db.peers, p.id = id) :
    (db.createForPeers type date savedPeerId ids).Formed :=
  ((formed.nextContent (db.nextContent + 1)).createRefs (known_rows _ known)).sync

theorem exactAt_createForPeers_iff (formed : db.Formed)
    (known : ∀ id ∈ ids, ∃ p ∈ db.peers, p.id = id) (exact : db.ExactAt peerId) :
    (db.createForPeers type date savedPeerId ids).ExactAt peerId ↔
      (type = .scheduled → peerId ∉ ids) :=
  exactAt_created_iff (formed.nextContent (db.nextContent + 1)) (known_rows _ known) (type_rows _)
    (fun _ => mem_rows _) exact

theorem lastMessage_createForPeers (formed : db.Formed)
    (known : ∀ id ∈ ids, ∃ p ∈ db.peers, p.id = id)
    (last : (db.createForPeers .regular date savedPeerId ids).lastMessage peerId = some r) :
    db.nextRef ≤ r.id ∨ (r ∈ db.refs ∧ r.peerId ∉ ids) := by
  have formed' := formed.nextContent (db.nextContent + 1)
  obtain ⟨here, ⟨named, -⟩, -⟩ := lastMessage_eq_some_iff.mp last
  let content : MessageContent := ⟨db.nextContent, .regular, date, savedPeerId⟩
  by_cases listed : peerId ∈ ids
  · obtain ⟨s, newest, regular, new⟩ := lastRef_createRefs formed' (known_rows content known)
      (type_rows content) ((mem_rows content).mp listed)
    have sent : s.content.type ≠ .scheduled := by
      rw [regular]
      exact fun none => by cases none
    have same := (lastMessage_of_lastRef newest sent).symm.trans last
    exact .inl (Option.some.inj same ▸ new)
  · have kept : SameAt peerId { db with nextContent := db.nextContent + 1 } _ :=
      sameAt_createRefs formed' (known_rows content known) fun row among own =>
        listed ((mem_rows content).mpr (own ▸ List.mem_map_of_mem among))
    exact .inr ⟨(kept.rows r named).mp here, named ▸ listed⟩

theorem Formed.mem_createPeer (formed : db.Formed) {ptype : PeerType} {p : Peer} :
    p ∈ (db.createPeer ownerId ptype).peers ↔
      p ∈ db.peers ∨ p = ⟨db.nextPeer, ownerId, ptype, false, none, none⟩ :=
  Table.mem_insert (Table.get_eq_none_iff.mpr fun q here => Nat.ne_of_lt (formed.peers q here))

theorem Formed.createPeer (formed : db.Formed) {ptype : PeerType} :
    (db.createPeer ownerId ptype).Formed where
  refs := formed.refs
  peers p here := by
    rcases formed.mem_createPeer.mp here with old | rfl
    · exact Nat.lt_succ_of_lt (formed.peers p old)
    · exact Nat.lt_succ_self _
  owners r here := by
    obtain ⟨q, there, named⟩ := formed.owners r here
    exact ⟨q, formed.mem_createPeer.mpr (.inl there), named⟩

theorem Formed.lastRef_none (formed : db.Formed) (absent : ∀ p ∈ db.peers, p.id ≠ peerId) :
    db.lastRef peerId = none := by
  rw [lastRef, newestRef_eq_none_iff]
  intro r here
  rw [beq_eq_false_iff_ne]
  intro named
  obtain ⟨q, there, owner⟩ := formed.owners r here
  exact absent q there (owner.trans named)

theorem Formed.lastMessage_nextPeer (formed : db.Formed) : db.lastMessage db.nextPeer = none :=
  lastMessage_of_lastRef_none (formed.lastRef_none fun p here => Nat.ne_of_lt (formed.peers p here))

theorem exactAt_createPeer (formed : db.Formed) {ptype : PeerType} (exact : db.ExactAt peerId) :
    (db.createPeer ownerId ptype).ExactAt peerId := by
  have kept : (db.createPeer ownerId ptype).lastMessage peerId = db.lastMessage peerId := rfl
  intro p here named
  rw [kept]
  rcases formed.mem_createPeer.mp here with old | rfl
  · exact exact p old named
  · rw [← named, formed.lastMessage_nextPeer]
    exact ⟨rfl, rfl⟩

theorem findPeer_mem {ptype : PeerType} {p : Peer} (found : db.findPeer ownerId ptype = some p) :
    p ∈ db.peers := List.mem_of_find?_eq_some found

theorem getOpposite_cases (formed : db.Formed) (peer : Peer) :
    ((db.getOpposite peer).1 = db ∨ ∃ o t, (db.getOpposite peer).1 = db.createPeer o t) ∧
      ∀ id ∈ (db.getOpposite peer).2, ∃ p ∈ (db.getOpposite peer).1.peers, p.id = id := by
  have none : ∀ id ∈ ([] : List Nat), ∃ p ∈ db.peers, p.id = id := fun id here => by cases here
  unfold getOpposite
  split
  · split
    · exact ⟨.inl rfl, none⟩
    · split
      · exact ⟨.inl rfl, none⟩
      · split
        · rename_i other found
          refine ⟨.inl rfl, fun id here => ?_⟩
          split at here
          · cases here
          · exact ⟨other, findPeer_mem found, (List.mem_singleton.mp here).symm⟩
        · refine ⟨.inr ⟨_, _, rfl⟩, fun id here => ?_⟩
          exact ⟨_, formed.mem_createPeer.mpr (.inr rfl), (List.mem_singleton.mp here).symm⟩
  · refine ⟨.inl rfl, fun id here => ?_⟩
    obtain ⟨p, listed, rfl⟩ := List.mem_map.mp here
    exact ⟨p, (List.mem_filter.mp listed).1, rfl⟩
  · exact ⟨.inl rfl, none⟩

/-- What the recipients add to the database: the peer itself is there. -/
structure Reaches (db : Db) (reached : Db × List Nat) : Prop where
  formed : reached.1.Formed
  known : ∀ id ∈ reached.2, ∃ p ∈ reached.1.peers, p.id = id
  exact : ∀ peerId, db.ExactAt peerId → reached.1.ExactAt peerId
  refs : reached.1.refs = db.refs
  nextRef : reached.1.nextRef = db.nextRef

theorem reaches_recipients (formed : db.Formed) (here : peer ∈ db.peers) (opposite : Bool) :
    Reaches db (db.recipients peer opposite) := by
  have grows : ∀ reached : Db × List Nat,
      (reached.1 = db ∨ ∃ o t, reached.1 = db.createPeer o t) →
      (∀ id ∈ reached.2, ∃ p ∈ reached.1.peers, p.id = id) →
      Reaches db (reached.1, peer.id :: reached.2) := by
    rintro ⟨after, others⟩ either known
    have own : ∃ p ∈ after.peers, p.id = peer.id := by
      rcases either with rfl | ⟨o, t, rfl⟩
      · exact ⟨peer, here, rfl⟩
      · exact ⟨peer, formed.mem_createPeer.mpr (.inl here), rfl⟩
    have all : ∀ id ∈ peer.id :: others, ∃ p ∈ after.peers, p.id = id := by
      intro id listed
      rcases List.mem_cons.mp listed with rfl | other
      · exact own
      · exact known id other
    rcases either with rfl | ⟨o, t, rfl⟩
    · exact ⟨formed, all, fun _ exact => exact, rfl, rfl⟩
    · exact ⟨formed.createPeer, all, fun _ => exactAt_createPeer formed, rfl, rfl⟩
  cases opposite with
  | true =>
    obtain ⟨either, known⟩ := getOpposite_cases formed peer
    exact grows (db.getOpposite peer) either known
  | false => exact grows (db, []) (.inl rfl) fun id none => by cases none

variable (db) in
theorem mem_recipients (peer : Peer) (opposite : Bool) :
    peer.id ∈ (db.recipients peer opposite).2 := List.mem_cons_self

end Db

/-! ### Deletion -/

namespace Db

variable {db : Db} {peerId other : Nat} {ids : List Nat} {doomed : MessageRef → Bool}

theorem Formed.deleteRefs (formed : db.Formed) : (db.deleteRefs doomed).Formed where
  refs r here := formed.refs r (Table.mem_remove.mp here).1
  peers := formed.peers
  owners r here := formed.owners r (Table.mem_remove.mp here).1

theorem Formed.removePeer (formed : db.Formed) : (db.removePeer other).Formed where
  refs r here := formed.refs r (Table.mem_remove.mp here).1
  peers p here := formed.peers p (Table.mem_remove.mp here).1
  owners r here := by
    have kept : r ∈ db.refs ∧ (r.peerId == other) = false := Table.mem_remove.mp here
    obtain ⟨q, there, named⟩ := formed.owners r kept.1
    refine ⟨q, Table.mem_remove.mpr ⟨there, ?_⟩, named⟩
    rw [named]
    exact kept.2

theorem exactAt_removePeer_self : (db.removePeer peerId).ExactAt peerId := by
  intro p here named
  have kept : p ∈ db.peers ∧ (p.id == peerId) = false := Table.mem_remove.mp here
  exact absurd named (beq_eq_false_iff_ne.mp kept.2)

theorem exactAt_removePeer_iff (foreign : other ≠ peerId) :
    (db.removePeer other).ExactAt peerId ↔ db.ExactAt peerId := by
  have same : SameAt peerId db (db.removePeer other) := sameAt_removePeer foreign
  refine ⟨fun exact p here named => ?_, same.exactAt⟩
  have kept : p ∈ (db.removePeer other).peers := by
    refine Table.mem_remove.mpr ⟨here, ?_⟩
    rw [beq_eq_false_iff_ne, named]
    exact foreign.symm
  rw [← same.lastMessage]
  exact exact p kept named

theorem exactAt_deleted_iff (formed : db.Formed) (exact : db.ExactAt peerId) :
    ((db.deleteRefs doomed).syncLastMessageBulk
      ((db.refs.rows.filter doomed).map MessageRef.peerId)).ExactAt peerId ↔
        db.LeavesMessage peerId doomed := by
  have left : (db.deleteRefs doomed).lastRef peerId =
      db.newestRef fun r => r.peerId == peerId && !doomed r := by
    refine newestRef_congr fun r => ?_
    have kept : r ∈ (db.deleteRefs doomed).refs ↔ r ∈ db.refs ∧ doomed r = false :=
      Table.mem_remove
    rw [kept, Bool.and_eq_true, Bool.not_eq_true', and_assoc, and_comm (a := doomed r = false)]
  have listed : peerId ∈ (db.refs.rows.filter doomed).map MessageRef.peerId ↔
      ∃ r ∈ db.refs, r.peerId = peerId ∧ doomed r = true := by
    rw [List.mem_map]
    constructor
    · rintro ⟨r, here, named⟩
      obtain ⟨there, gone⟩ := List.mem_filter.mp here
      exact ⟨r, there, named, gone⟩
    · rintro ⟨r, there, named, gone⟩
      exact ⟨r, List.mem_filter.mpr ⟨there, gone⟩, named⟩
  by_cases loses : ∃ r ∈ db.refs, r.peerId = peerId ∧ doomed r = true
  · obtain ⟨r, here, named, gone⟩ := loses
    obtain ⟨q, known, owner⟩ := formed.owners r here
    have own : q.id = peerId := owner.trans named
    have there : q ∈ (db.deleteRefs doomed).peers := known
    rw [LeavesMessage, ← left]
    have affected : peerId ∈ (db.refs.rows.filter doomed).map MessageRef.peerId :=
      listed.mpr ⟨r, here, named, gone⟩
    cases last : (db.deleteRefs doomed).lastRef peerId with
    | some s =>
      rw [exactAt_sync_iff affected there own last]
      exact ⟨fun sent _ => sent, fun sent => sent ⟨r, here, named, gone⟩⟩
    | none =>
      rw [exactAt_sync_none_iff there own last, (exact q known own).1, (exact q known own).2,
        Option.map_eq_none_iff, Option.map_eq_none_iff, and_self]
      exact ⟨fun none _ => none, fun none => none ⟨r, here, named, gone⟩⟩
  · refine iff_of_true ?_ fun some => absurd some loses
    refine (sameAt_sync (mt listed.mp loses)).exactAt ((sameAt_deleteRefs ?_).exactAt exact)
    intro r here named
    by_contra gone
    exact loses ⟨r, here, named, eq_true_of_ne_false gone⟩

end Db

/-! ### The requests -/

namespace Db

structure Steps (db after : Db) (keeps : Nat → Prop) : Prop where
  formed : after.Formed
  exactAt_iff : ∀ peerId, db.ExactAt peerId → (after.ExactAt peerId ↔ keeps peerId)

variable {db after : Db} {peerId : Nat} {ids : List Nat} {scheduled : MessageRef} {peer : Peer}
  {opposite : Bool} {type : MessageType} {date now : Int} {savedPeerId : Option Nat}
  {contents : List MessageContent} {keeps keeps' : Nat → Prop} {doomed : MessageRef → Bool}

theorem Steps.congr (steps : Steps db after keeps) (same : ∀ peerId, keeps peerId ↔ keeps' peerId) :
    Steps db after keeps' :=
  ⟨steps.formed, fun peerId exact => (steps.exactAt_iff peerId exact).trans (same peerId)⟩

theorem Steps.always (formed : after.Formed)
    (exact : ∀ peerId, db.ExactAt peerId → after.ExactAt peerId) (all : ∀ peerId, keeps peerId) :
    Steps db after keeps :=
  ⟨formed, fun peerId before => iff_of_true (exact peerId before) (all peerId)⟩

theorem Steps.stay (formed : db.Formed) (all : ∀ peerId, keeps peerId) : Steps db db keeps :=
  .always formed (fun _ exact => exact) all

theorem steps_setBlocked (formed : db.Formed) (id : Nat) (blocked : Bool) :
    Steps db (db.setBlocked id blocked) fun _ => True := by
  refine .always ⟨formed.refs, fun p here => ?_, fun r here => ?_⟩
    (fun _ exact => sameAt_setBlocked.exactAt exact) fun _ => trivial
  · obtain ⟨q, there, rfl⟩ := mem_setBlocked.mp here
    have small := formed.peers q there
    split
    · exact small
    · exact small
  · obtain ⟨q, there, named⟩ := formed.owners r here
    refine ⟨_, mem_setBlocked.mpr ⟨q, there, rfl⟩, ?_⟩
    split
    · exact named
    · exact named

theorem steps_createForPeer (formed : db.Formed) (here : peer ∈ db.peers) :
    Steps db (db.createForPeer peer opposite type date) fun peerId =>
      type = .scheduled → peerId ∉ (db.recipients peer opposite).2 := by
  have reaches := reaches_recipients formed here opposite
  exact ⟨reaches.formed.createForPeers reaches.known, fun peerId exact =>
    exactAt_createForPeers_iff reaches.formed reaches.known (reaches.exact peerId exact)⟩

theorem steps_sendScheduledMessage (formed : db.Formed) (here : scheduled ∈ db.refs)
    (there : peer ∈ db.peers) (named : peer.id = scheduled.peerId) :
    Steps db (db.sendScheduledMessage scheduled peer opposite now) fun _ => True := by
  obtain ⟨middle, ids, reached⟩ : ∃ middle ids, db.recipients peer opposite = (middle, ids) :=
    ⟨_, _, rfl⟩
  have reaches := reaches_recipients formed there opposite
  have own := mem_recipients db peer opposite
  rw [sendScheduledMessage, reached]
  rw [reached] at reaches own
  have created : (middle.createForPeers .regular now scheduled.content.savedPeerId ids).Formed :=
    reaches.formed.createForPeers reaches.known
  refine .always created.deleteRefs (fun peerId exact => ?_) fun _ => trivial
  have sent : (middle.createForPeers .regular now scheduled.content.savedPeerId ids).ExactAt
      peerId := by
    refine (exactAt_createForPeers_iff reaches.formed reaches.known
      (reaches.exact peerId exact)).mpr ?_
    intro regular
    cases regular
  refine (exactAt_deleteRefs_iff created.owners sent).mpr fun r last => ?_
  rw [beq_eq_false_iff_ne]
  intro same
  have small := formed.refs scheduled here
  rcases lastMessage_createForPeers reaches.formed reaches.known last with new | ⟨old, foreign⟩
  · have new' : db.nextRef ≤ r.id := reaches.nextRef ▸ new
    omega
  · have before : r ∈ db.refs := reaches.refs ▸ old
    rw [db.refs.eq_of_key_eq before here same, ← named] at foreign
    exact foreign own

theorem steps_forwardForPeers (formed : db.Formed) (ref : MessageRef) (isForward : Bool)
    (known : ∀ id ∈ ids, ∃ p ∈ db.peers, p.id = id) :
    Steps db (db.forwardForPeers ref ids savedPeerId isForward now) fun peerId =>
      ref.content.type = .scheduled → peerId ∉ ids := by
  unfold forwardForPeers
  split
  · rename_i empty
    rw [List.isEmpty_iff] at empty
    subst empty
    exact .stay formed fun _ _ => List.not_mem_nil
  · exact ⟨formed.createForPeers known, fun peerId exact =>
      exactAt_createForPeers_iff formed known exact⟩

theorem cloneForwardBulk_spec (refs : List MessageRef) : ∃ n,
    (db.cloneForwardBulk now savedPeerId refs).1 = { db with nextContent := n } ∧
      ∀ content ∈ (db.cloneForwardBulk now savedPeerId refs).2, ∃ ref ∈ refs,
        content.type = ref.content.type := by
  induction refs generalizing db with
  | nil => exact ⟨db.nextContent, rfl, fun content here => by cases here⟩
  | cons ref rest ih =>
    obtain ⟨n, same, types⟩ := @ih { db with nextContent := db.nextContent + 1 }
    refine ⟨n, same, fun content here => ?_⟩
    rcases List.mem_cons.mp here with rfl | later
    · exact ⟨ref, List.mem_cons_self, rfl⟩
    · obtain ⟨source, listed, type⟩ := types content later
      exact ⟨source, List.mem_cons_of_mem ref listed, type⟩

theorem regular_of_forwardSources {fromPeerId : Nat} {r : MessageRef}
    (taken : r ∈ db.forwardSources fromPeerId ids) : r.content.type = .regular := by
  have listed := (List.mem_insertionSort _).mp (List.mem_of_mem_take taken)
  have fits := (List.mem_filter.mp listed).2
  rw [Bool.and_eq_true, beq_iff_eq] at fits
  exact fits.2

theorem steps_forwardForPeersBulk (formed : db.Formed)
    (known : ∀ id ∈ ids, ∃ p ∈ db.peers, p.id = id)
    (regular : ∀ content ∈ contents, content.type = .regular) :
    Steps db (db.forwardForPeersBulk contents ids) fun _ => True := by
  unfold forwardForPeersBulk
  split
  · exact .stay formed fun _ => trivial
  · rename_i some
    rw [Bool.or_eq_true, not_or, List.isEmpty_iff, List.isEmpty_iff] at some
    have mem : ∀ row, row ∈ (contents.flatMap fun content => ids.map fun id => (id, content)) ↔
        row.1 ∈ ids ∧ row.2 ∈ contents := by
      rintro ⟨id, content⟩
      simp only [List.mem_flatMap, List.mem_map, Prod.mk.injEq]
      constructor
      · rintro ⟨content, there, id, listed, rfl, rfl⟩
        exact ⟨listed, there⟩
      · rintro ⟨listed, there⟩
        exact ⟨content, there, id, listed, rfl, rfl⟩
    have known' := fun row here => known _ ((mem row).mp here).1
    refine .always (formed.createRefs known').sync (fun peerId exact => ?_) fun _ => trivial
    refine (exactAt_created_iff formed known' (fun row here => regular _ ((mem row).mp here).2)
      (fun id => ?_) exact).mpr fun scheduled => by cases scheduled
    obtain ⟨content, there⟩ := List.exists_mem_of_ne_nil contents some.2
    rw [List.mem_map]
    constructor
    · exact fun listed => ⟨(id, content), (mem _).mpr ⟨listed, there⟩, rfl⟩
    · rintro ⟨row, here, rfl⟩
      exact ((mem row).mp here).1

theorem steps_forwardMessages (formed : db.Formed) (here : peer ∈ db.peers) (fromPeerId : Nat) :
    Steps db (db.forwardMessages fromPeerId peer ids savedPeerId now) fun _ => True := by
  have reaches := reaches_recipients formed here true
  unfold forwardMessages
  dsimp only
  split
  · exact .stay formed fun _ => trivial
  · obtain ⟨n, same, types⟩ := @cloneForwardBulk_spec (db.recipients peer true).1 now savedPeerId
      (db.forwardSources fromPeerId (ids.take 100))
    rw [same]
    have steps := steps_forwardForPeersBulk (reaches.formed.nextContent n) reaches.known
      fun content listed => by
        obtain ⟨ref, taken, type⟩ := types content listed
        exact type.trans (regular_of_forwardSources taken)
    exact .always steps.formed (fun peerId exact =>
      (steps.exactAt_iff peerId (reaches.exact peerId exact)).mpr trivial) fun _ => trivial

theorem steps_copied (formed : db.Formed) (ownerId : Option Nat) (ptype : PeerType)
    {forwarded : List MessageRef} (regular : ∀ r ∈ forwarded, r.content.type = .regular) :
    Steps db (((db.createPeer ownerId ptype).createRefs
      (forwarded.map fun r => (db.nextPeer, r.content))).syncLastMessageBulk [db.nextPeer])
        fun _ => True := by
  have joined : (⟨db.nextPeer, ownerId, ptype, false, none, none⟩ : Peer) ∈
      (db.createPeer ownerId ptype).peers := formed.mem_createPeer.mpr (.inr rfl)
  have known : ∀ row ∈ forwarded.map fun r => (db.nextPeer, r.content),
      ∃ p ∈ (db.createPeer ownerId ptype).peers, p.id = row.1 := by
    intro row here
    obtain ⟨r, -, rfl⟩ := List.mem_map.mp here
    exact ⟨_, joined, rfl⟩
  have types : ∀ row ∈ forwarded.map fun r => (db.nextPeer, r.content),
      row.2.type = .regular := by
    intro row here
    obtain ⟨r, there, rfl⟩ := List.mem_map.mp here
    exact regular r there
  have created : (db.createPeer ownerId ptype).Formed := formed.createPeer
  refine .always (created.createRefs known).sync (fun peerId exact => ?_) fun _ => trivial
  have before : (db.createPeer ownerId ptype).ExactAt peerId := exactAt_createPeer formed exact
  cases forwarded with
  | nil =>
    by_cases new : peerId = db.nextPeer
    · subst new
      have last : (db.createPeer ownerId ptype).lastRef db.nextPeer = none :=
        formed.lastRef_none fun p here => Nat.ne_of_lt (formed.peers p here)
      exact (exactAt_sync_none_iff joined rfl last).mpr ⟨rfl, rfl⟩
    · exact (sameAt_sync fun listed => new (List.mem_singleton.mp listed)).exactAt before
  | cons first rest =>
    refine (exactAt_created_iff created known types (fun id => ?_) before).mpr
      fun none => by cases none
    rw [List.mem_singleton, List.mem_map]
    constructor
    · rintro rfl
      exact ⟨_, List.mem_map_of_mem List.mem_cons_self, rfl⟩
    · rintro ⟨row, here, rfl⟩
      obtain ⟨r, -, rfl⟩ := List.mem_map.mp here
      rfl

theorem steps_createPeer (formed : db.Formed) (ownerId : Option Nat) (ptype : PeerType) :
    Steps db (db.createPeer ownerId ptype) fun _ => True :=
  .always formed.createPeer (fun _ => exactAt_createPeer formed) fun _ => trivial

theorem steps_addChatUser (formed : db.Formed) (userId newUserId chatId : Nat) (fwdLimit : Int) :
    Steps db (db.addChatUser userId newUserId chatId fwdLimit) fun _ => True := by
  unfold addChatUser
  split
  · dsimp only
    split
    · refine steps_copied formed (some newUserId) (.chat chatId) fun r taken => ?_
      have fits := (List.mem_filter.mp (mem_of_mem_newest taken)).2
      rw [Bool.and_eq_true, beq_iff_eq, beq_iff_eq] at fits
      exact fits.2
    · exact steps_createPeer formed (some newUserId) (.chat chatId)
  · exact .stay formed fun _ => trivial

theorem steps_deleteRefs (formed : db.Formed) : Steps db (db.deleteRefs doomed) fun peerId =>
    ∀ r, db.lastMessage peerId = some r → doomed r = false :=
  ⟨formed.deleteRefs, fun _ exact => exactAt_deleteRefs_iff formed.owners exact⟩

theorem steps_deleteContents (formed : db.Formed) (contentIds : List Nat) :
    Steps db (db.deleteContents contentIds) fun peerId =>
      ∀ r, db.lastMessage peerId = some r → r.content.id ∉ contentIds := by
  refine (steps_deleteRefs formed).congr fun peerId => ?_
  refine forall₂_congr fun r _ => ?_
  rw [← Bool.not_eq_true, List.contains_iff_mem]

theorem deleteRefs_deleteRefs (doomed doomed' : MessageRef → Bool) :
    (db.deleteRefs doomed).deleteRefs doomed' = db.deleteRefs fun r => doomed r || doomed' r := by
  unfold deleteRefs Table.remove
  simp only [List.filter_filter, Bool.not_or, Bool.and_comm]

theorem steps_deletePeer (formed : db.Formed) (contentIds : List Nat) (other : Nat) :
    Steps db ((db.deleteContents contentIds).deletePeer other) fun peerId =>
      other = peerId ∨ ∀ r, db.lastMessage peerId = some r →
        r.content.id ∉ contentIds ∧ r.content.savedPeerId ≠ some other := by
  rw [deletePeer, deleteContents, deleteRefs_deleteRefs]
  let doomed (r : MessageRef) : Bool :=
    contentIds.contains r.content.id || r.content.savedPeerId == some other
  have steps : Steps db (db.deleteRefs doomed) fun peerId =>
      ∀ r, db.lastMessage peerId = some r → doomed r = false := steps_deleteRefs formed
  refine ⟨steps.formed.removePeer, fun peerId exact => ?_⟩
  by_cases own : other = peerId
  · subst own
    exact iff_of_true exactAt_removePeer_self (.inl rfl)
  · rw [or_iff_right own, exactAt_removePeer_iff own, steps.exactAt_iff peerId exact]
    refine forall₂_congr fun r _ => ?_
    rw [Bool.or_eq_false_iff, beq_eq_false_iff_ne, ← Bool.not_eq_true, List.contains_iff_mem]

theorem steps_deleteHistory (formed : db.Formed) (r : DeleteHistory) :
    Steps db (r.run db) fun peerId => db.KeepsAt peerId (.deleteHistory r) := by
  unfold DeleteHistory.run
  split
  · rename_i none
    refine .stay formed fun peerId peer found => ?_
    rw [none] at found
    cases found
  · rename_i peer found
    have only : ∀ peerId, db.KeepsAt peerId (.deleteHistory r) ↔
        (r.leaves db peer = true ∧ peer.id = peerId) ∨
          ∀ m, db.lastMessage peerId = some m → m.content.id ∉ r.contentIds db ∧
            (r.leaves db peer = true → m.content.savedPeerId ≠ some peer.id) := by
      intro peerId
      constructor
      · exact fun keeps => keeps peer found
      · intro keeps peer' found'
        rw [found] at found'
        cases found'
        exact keeps
    split
    · rename_i leaves
      refine (steps_deletePeer formed (r.contentIds db) peer.id).congr fun peerId => ?_
      rw [only peerId, and_iff_right leaves]
      simp only [leaves, forall_const]
    · rename_i stays
      refine (steps_deleteContents formed (r.contentIds db)).congr fun peerId => ?_
      rw [only peerId, or_iff_right fun both => stays both.1]
      simp only [stays, Bool.false_eq_true, false_implies, and_true]

theorem steps_apply (formed : db.Formed) (e : Event) :
    Steps db (db.apply e) fun peerId => db.KeepsAt peerId e := by
  cases e with
  | createPeer ownerId type =>
    unfold Db.apply
    dsimp only
    split
    · exact .stay formed fun _ => trivial
    · exact steps_createPeer formed ownerId type
  | setBlocked id blocked => exact steps_setBlocked formed id blocked
  | createForPeer id opposite type date =>
    unfold Db.apply
    dsimp only
    split
    · rename_i absent
      refine .stay formed fun peerId _ peer found => ?_
      rw [absent] at found
      cases found
    · rename_i peer found
      have here : peer ∈ db.peers := (Table.get_eq_some_iff.mp found).1
      refine (steps_createForPeer formed here).congr fun peerId => ?_
      refine ⟨fun keeps scheduled other also => ?_, fun keeps scheduled =>
        keeps scheduled peer found⟩
      rw [found] at also
      cases also
      exact keeps scheduled
  | sendScheduledMessage messageId opposite now =>
    unfold Db.apply
    dsimp only
    split
    · exact .stay formed fun _ => trivial
    · rename_i scheduled listed
      split
      · exact .stay formed fun _ => trivial
      · rename_i peer found
        obtain ⟨there, named⟩ := Table.get_eq_some_iff.mp found
        exact steps_sendScheduledMessage formed (Table.get_eq_some_iff.mp listed).1 there named
  | forwardForPeers messageId peerIds savedPeerId isForward now =>
    unfold Db.apply
    dsimp only
    split
    · rename_i absent
      refine .stay formed fun peerId ref found => ?_
      rw [absent] at found
      cases found
    · rename_i ref found
      have known : ∀ id ∈ peerIds.filter fun id => (db.peers.get id).isSome,
          ∃ p ∈ db.peers, p.id = id := by
        intro id here
        obtain ⟨p, there⟩ := Option.isSome_iff_exists.mp (List.mem_filter.mp here).2
        exact ⟨p, Table.get_eq_some_iff.mp there⟩
      refine (steps_forwardForPeers formed ref isForward known).congr fun peerId => ?_
      constructor
      · intro keeps other also scheduled p here named listed
        rw [found] at also
        cases also
        refine keeps scheduled (List.mem_filter.mpr ⟨listed, ?_⟩)
        rw [Table.get_eq_some_iff.mpr ⟨here, named⟩]
        rfl
      · intro keeps scheduled listed
        obtain ⟨p, here, named⟩ := known peerId listed
        exact keeps ref found scheduled p here named (List.mem_filter.mp listed).1
  | forwardMessages fromPeerId toPeerId ids savedPeerId now =>
    unfold Db.apply
    dsimp only
    split
    · exact .stay formed fun _ => trivial
    · rename_i peer found
      exact steps_forwardMessages formed (Table.get_eq_some_iff.mp found).1 fromPeerId
  | addChatUser userId newUserId chatId fwdLimit =>
    exact steps_addChatUser formed userId newUserId chatId fwdLimit
  | deleteMessages userId ids revoke =>
    exact ⟨formed.deleteRefs.sync, fun _ exact => exactAt_deleted_iff formed exact⟩
  | deleteHistory r => exact steps_deleteHistory formed r
  | deleteSavedHistory r =>
    unfold Db.apply DeleteSavedHistory.run
    dsimp only
    split
    · rename_i found
      refine (steps_deleteRefs formed).congr fun peerId => ?_
      rw [KeepsAt, imp_iff_right found]
      refine forall₂_congr fun m _ => ?_
      rw [← Bool.not_eq_true, List.contains_iff_mem]
    · rename_i absent
      exact .stay formed fun _ found => absurd found absent
  | deleteScheduledMessage contentId =>
    refine (steps_deleteContents formed [contentId]).congr fun peerId => ?_
    refine forall₂_congr fun m _ => ?_
    rw [List.mem_singleton]

theorem initial_formed : initial.Formed where
  refs r none := absurd none (Table.notMem_empty r)
  peers p none := absurd none (Table.notMem_empty p)
  owners r none := absurd none (Table.notMem_empty r)

end Db

/-- A peer is stored with its last message in every state of a run exactly when every step of the
run keeps it. -/
theorem last_message_exact_iff (peerId : Nat) (es : List Event) :
    HoldsAlong Db.step (fun db => db.ExactAt peerId) Db.initial es ↔
      StepsMeet Db.step (fun db e => db.KeepsAt peerId e) Db.initial es := by
  obtain ⟨after, run⟩ := runFrom_total (fun db e => ⟨Db.apply db e, rfl⟩) Db.initial es
  have start : Db.initial.Formed ∧ Db.initial.ExactAt peerId :=
    ⟨Db.initial_formed, fun p none => absurd none (Table.notMem_empty p)⟩
  refine holdsAlong_iff_stepsMeet (fun db (inv : db.Formed ∧ db.ExactAt peerId) => inv.2)
    ?_ ?_ start run
  · rintro db e _ ⟨formed, exact⟩ keeps happens
    obtain rfl := Option.some.inj happens
    have steps := Db.steps_apply formed e
    exact ⟨steps.formed, (steps.exactAt_iff peerId exact).mpr keeps⟩
  · rintro db e _ ⟨formed, exact⟩ breaks happens after
    obtain rfl := Option.some.inj happens
    exact breaks (((Db.steps_apply formed e).exactAt_iff peerId exact).mp after)

/-- A saved message that is deleted, the only one, stays the last message of its peer. -/
theorem deleted_message_stays : ¬ ∀ (es : List Event) (db : Db) (peerId : Nat),
    runFrom Db.step Db.initial es = some db → db.ExactAt peerId := by
  intro exact
  have stale := exact [.createPeer (some 1) .self, .createForPeer 1 false .regular 100,
    .deleteMessages 1 [1] false] _ 1 rfl ⟨1, some 1, .self, false, some 1, some 100⟩
    (List.mem_singleton_self _) rfl
  exact absurd stale.1 (by decide)

end Piltover.Peers
