/- source: piltover/app/handlers/channels.py
   digest: Deleting the history of a channel, for oneself and for everyone. -/

import Piltover.Channels.Discussion
import Piltover.History.Hidden

set_option autoImplicit false

namespace Piltover.History

open Piltover.Foundation
open Piltover.Foundation.Paging

def deleteMessagesRight : Nat := 1 <<< 3

/-- `DeleteHistory` for a channel; `reaches` tells if the hash of the input channel is right. -/
structure DeleteHistory where
  channelId : Nat
  reaches : Bool
  maxId : Nat
  forEveryone : Bool

def ChatParticipant.setMinMessageId (minId : Option Nat) (p : ChatParticipant) : ChatParticipant :=
  { p with minMessageId := minId }

theorem ChatParticipant.key_setMinMessageId (minId : Option Nat) (p : ChatParticipant) :
    (p.setMinMessageId minId).key = p.key := rfl

def Channel.setMinAvailable (minId : Nat) (c : Channel) : Channel :=
  { c with minAvailableId := some minId, minAvailableIdForce := some minId }

theorem Channel.id_setMinAvailable (minId : Nat) (c : Channel) :
    (c.setMinAvailable minId).id = c.id := rfl

namespace Db

variable (db : Db)

def rowsUpTo (channelId maxId : Nat) : List MessageRef :=
  db.refs.rows.filter fun r =>
    ((db.peers.get r.peerId).any fun p => p.type == .channel channelId) && decide (r.id ≤ maxId)

/-- The newest identifier among them, 0 where there is none. -/
def newestUpTo (channelId maxId : Nat) : Nat :=
  ((newest MessageRef.id (db.rowsUpTo channelId maxId) 1).head?.map MessageRef.id).getD 0

def channelPeer (channelId : Nat) : Option Peer :=
  db.peers.rows.find? fun p => p.type == .channel channelId

def saveMinMessageId (p : ChatParticipant) (minId : Option Nat) : Db :=
  { db with
    participants := db.participants.modify (fun row => row.key == p.key)
      (ChatParticipant.setMinMessageId minId) (ChatParticipant.key_setMinMessageId minId) }

def saveMinAvailable (channel : Channel) (minId : Nat) : Db :=
  { db with
    channels := db.channels.modify (fun row => row.id == channel.id)
      (Channel.setMinAvailable minId) (Channel.id_setMinAvailable minId) }

def deleteRefs (ids : List Nat) : Db :=
  { db with refs := db.refs.remove fun r => ids.contains r.id }

def deleteHistory (threshold userId : Nat) (r : DeleteHistory) : Except Failure Db := do
  let channel ← orRaise (if r.reaches then db.channels.get r.channelId else none)
    (.rpc 406 "CHANNEL_PRIVATE")
  let participant ← orRaise (db.getParticipant channel userId) (.rpc 400 "CHAT_RESTRICTED")
  let newMinAvailableId := db.newestUpTo channel.id r.maxId
  if !r.forEveryone then
    if newMinAvailableId < participant.minMessageId.getD 0 then .ok db
    else .ok (db.saveMinMessageId participant (truthy newMinAvailableId))
  else do
    require (Channels.adminHasPermission channel.toChannel participant.toChatParticipant
      deleteMessagesRight) (.rpc 403 "CHAT_ADMIN_REQUIRED")
    let peer ← orRaise (db.channelPeer channel.id) .other
    let messageIds := (newest MessageRef.id (db.refs.rows.filter fun m =>
      m.peerId == peer.id && decide (m.id ≤ r.maxId)) (threshold + 1)).map MessageRef.id
    match messageIds with
    -- An empty list is not longer than the threshold, and `pop` raises.
    | [] => .error .other
    | newestId :: older =>
      if messageIds.length > threshold then .ok (db.saveMinAvailable channel newestId)
      else .ok ((db.deleteRefs older).syncLastMessageBulk [peer.id])

/-- The user sees the message of the channel. -/
def Sees (channelId peerId userId : Nat) (m : MessageRef) : Prop :=
  m ∈ db.refs ∧ m.peerId = peerId ∧ ∃ c, db.channels.get channelId = some c ∧
    db.appendChannelMinMessageIdToQueryMaybe (.channel c) none (some userId) m = true

/-- The row of the channel, and its one peer. -/
structure HasChannel (channel : Channel) (peer : Peer) : Prop where
  found : db.channels.get channel.id = some channel
  here : peer ∈ db.peers
  only : ∀ p ∈ db.peers, p.type = .channel channel.id ↔ p = peer

end Db

section Facts

variable {db : Db} {channel : Channel} {peer : Peer} {userId maxId : Nat} (m : MessageRef)

def ownMin (s : Setting) (channel : Channel) (userId : Nat) : Nat :=
  ((s.getParticipant channel userId).bind ChatParticipant.minMessageId).getD 0

def JoinsShown (channel : Channel) (userId : Nat) (m : MessageRef) : Prop :=
  channel.channel = true → m.content.type = .service 7 → m.content.authorId = userId

variable {m} in
theorem append_channel_iff {s : Setting} :
    s.appendChannelMinMessageIdToQueryMaybe (.channel channel) none (some userId) m = true ↔
      channel.commonMin ≤ m.id ∧ ownMin s channel userId ≤ m.id ∧ JoinsShown channel userId m := by
  have joins : (!channel.channel || (some userId).all fun userId =>
      m.content.type != .service 7 || m.content.authorId == userId) = true ↔
        JoinsShown channel userId m := by
    rw [JoinsShown, Bool.or_eq_true, Bool.not_eq_true', Option.all_some, Bool.or_eq_true,
      bne_iff_ne, beq_iff_eq]
    cases channel.channel with
    | false => simp only [true_or, Bool.false_eq_true, false_implies]
    | true => simp only [Bool.true_eq_false, false_or, ne_eq, imp_iff_not_or, not_true_eq_false]
  unfold Setting.appendChannelMinMessageIdToQueryMaybe
  dsimp only [Setting.channelOf, PeerOrChannel.participantUserId]
  rw [Bool.and_eq_true, Bool.and_eq_true, commonMin_le_iff, joins, and_assoc]
  exact and_congr_right fun _ => and_congr_left fun _ => isFrom_iff

variable (maxId) in
theorem mem_rowsUpTo (has : db.HasChannel channel peer) :
    m ∈ db.rowsUpTo channel.id maxId ↔ m ∈ db.refs ∧ m.peerId = peer.id ∧ m.id ≤ maxId := by
  have ours : ((db.peers.get m.peerId).any fun p => p.type == .channel channel.id) = true ↔
      m.peerId = peer.id := by
    rw [Option.any_eq_true]
    constructor
    · rintro ⟨p, found, type⟩
      obtain ⟨listed, named⟩ := Table.get_eq_some_iff.mp found
      rw [← named, (has.only p listed).mp (beq_iff_eq.mp type)]
    · intro named
      refine ⟨peer, ?_, beq_iff_eq.mpr ((has.only peer has.here).mpr rfl)⟩
      rw [named]
      exact Table.mem_iff_get.mp has.here
  rw [Db.rowsUpTo, List.mem_filter, Bool.and_eq_true, ours, decide_eq_true_iff, Table.mem_def]

theorem newestUpTo_of_newest {limit : Nat} {r : MessageRef} {rest : List MessageRef}
    (taken : newest MessageRef.id (db.rowsUpTo channel.id maxId) (limit + 1) = r :: rest) :
    db.newestUpTo channel.id maxId = r.id ∧ r ∈ db.rowsUpTo channel.id maxId ∧
      ∀ m ∈ db.rowsUpTo channel.id maxId, m.id ≤ r.id := by
  obtain ⟨one, here, greatest⟩ := head_newest taken
  refine ⟨?_, here, greatest⟩
  rw [Db.newestUpTo, one]
  rfl

variable {m} in
theorem le_newestUpTo (has : db.HasChannel channel peer) (stored : m ∈ db.refs)
    (ours : m.peerId = peer.id) (within : m.id ≤ maxId) :
    m.id ≤ db.newestUpTo channel.id maxId := by
  have listed : m ∈ db.rowsUpTo channel.id maxId :=
    (mem_rowsUpTo maxId m has).mpr ⟨stored, ours, within⟩
  cases taken : newest MessageRef.id (db.rowsUpTo channel.id maxId) 1 with
  | nil =>
    rw [newest_one_eq_nil_iff.mp taken] at listed
    cases listed
  | cons r rest =>
    obtain ⟨newest, -, greatest⟩ := newestUpTo_of_newest taken
    rw [newest]
    exact greatest m listed

theorem newestUpTo_le : db.newestUpTo channel.id maxId ≤ maxId := by
  cases taken : newest MessageRef.id (db.rowsUpTo channel.id maxId) 1 with
  | nil =>
    rw [Db.newestUpTo, taken]
    exact Nat.zero_le _
  | cons r rest =>
    obtain ⟨newest, here, -⟩ := newestUpTo_of_newest taken
    rw [newest]
    have listed := (List.mem_filter.mp here).2
    rw [Bool.and_eq_true, decide_eq_true_iff] at listed
    exact listed.2

theorem channelPeer_eq (has : db.HasChannel channel peer) :
    db.channelPeer channel.id = some peer := by
  cases found : db.channelPeer channel.id with
  | none =>
    have type := List.find?_eq_none.mp found peer has.here
    rw [beq_iff_eq, has.only peer has.here] at type
    exact absurd rfl type
  | some p =>
    have type := List.find?_some found
    rw [(has.only p (List.mem_of_find?_eq_some found)).mp (beq_iff_eq.mp type)]

theorem rows_of_peer (has : db.HasChannel channel peer) :
    (db.refs.rows.filter fun m => m.peerId == peer.id && decide (m.id ≤ maxId)) =
      db.rowsUpTo channel.id maxId := by
  refine List.filter_congr fun m here => ?_
  rw [Bool.eq_iff_iff, Bool.and_eq_true, beq_iff_eq, decide_eq_true_iff]
  have listed := mem_rowsUpTo maxId m has
  rw [Db.rowsUpTo, List.mem_filter] at listed
  exact ⟨fun both => (listed.mpr ⟨here, both⟩).2, fun both => (listed.mp ⟨here, both⟩).2⟩

variable (db channel peer userId) in
theorem sees_iff (found : db.channels.get channel.id = some channel) :
    db.Sees channel.id peer.id userId m ↔ m ∈ db.refs ∧ m.peerId = peer.id ∧
      channel.commonMin ≤ m.id ∧ ownMin db.toSetting channel userId ≤ m.id ∧
        JoinsShown channel userId m := by
  rw [Db.Sees]
  refine and_congr_right fun _ => and_congr_right fun _ => ?_
  constructor
  · rintro ⟨c, here, shown⟩
    rw [found] at here
    rw [← Option.some.inj here] at shown
    exact append_channel_iff.mp shown
  · exact fun shown => ⟨channel, found, append_channel_iff.mpr shown⟩

end Facts

/-- What a call leaves to be seen, where `n` is the newest identifier that it reaches. -/
structure Cleared (db after : Db) (channel : Channel) (peer : Peer) (userId n : Nat)
    (forEveryone : Bool) : Prop where
  /-- For everyone, nobody sees what is older. -/
  forAll : forEveryone = true → ∀ w m, m.id < n → ¬ after.Sees channel.id peer.id w m
  /-- Else the user does not, and nothing changes for others. -/
  forUser : forEveryone = false → ∀ m, m.id < n → ¬ after.Sees channel.id peer.id userId m
  others : forEveryone = false → ∀ w, w ≠ userId → ∀ m,
    after.Sees channel.id peer.id w m ↔ db.Sees channel.id peer.id w m
  /-- What is newer stays. -/
  kept : ∀ w m, n ≤ m.id → db.Sees channel.id peer.id w m → after.Sees channel.id peer.id w m
  /-- Nothing shows again, unless the bound for everyone is taken back. -/
  unrevealed : ¬ (forEveryone = true ∧ n < channel.commonMin) → ∀ w m,
    after.Sees channel.id peer.id w m → db.Sees channel.id peer.id w m

section Calls

variable {db : Db} {channel : Channel} {peer : Peer} {userId n : Nat}

theorem Cleared.refl (seen : ∀ m : MessageRef, m.id < n → ¬ db.Sees channel.id peer.id userId m) :
    Cleared db db channel peer userId n false where
  forAll := fun everyone => by cases everyone
  forUser := fun _ => seen
  others := fun _ _ _ _ => Iff.rfl
  kept := fun _ _ _ => id
  unrevealed := fun _ _ _ => id

theorem ownMin_saveMinMessageId {p : ChatParticipant}
    (present : db.getParticipant channel userId = some p) (w : Nat) :
    ownMin (db.saveMinMessageId p (truthy n)).toSetting channel w =
      if w = userId then n else ownMin db.toSetting channel w := by
  obtain ⟨found, here⟩ := Option.filter_eq_some_iff.mp present
  have key : p.key = (userId, channel.id) := (Table.get_eq_some_iff.mp found).2
  have saved : (db.saveMinMessageId p (truthy n)).participants.get (w, channel.id) =
      if p.key = (w, channel.id) then
        (db.participants.get (w, channel.id)).map (ChatParticipant.setMinMessageId (truthy n))
      else db.participants.get (w, channel.id) :=
    Table.get_modify_key db.participants (ChatParticipant.setMinMessageId (truthy n))
      (ChatParticipant.key_setMinMessageId (truthy n)) p.key (w, channel.id)
  unfold ownMin Setting.getParticipant
  rw [saved, key]
  by_cases same : w = userId
  · have present' : (p.setMinMessageId (truthy n)).left = p.left := rfl
    rw [same, if_pos rfl, if_pos rfl, found, Option.map_some, Option.filter_some, present', here]
    exact getD_truthy n
  · have apart : ¬ (userId, channel.id) = (w, channel.id) :=
      fun eq => same (congrArg Prod.fst eq).symm
    rw [if_neg apart, if_neg same]

theorem cleared_saveMinMessageId (found : db.channels.get channel.id = some channel)
    {p : ChatParticipant} (present : db.getParticipant channel userId = some p)
    (above : p.minMessageId.getD 0 ≤ n) :
    Cleared db (db.saveMinMessageId p (truthy n)) channel peer userId n false := by
  have own := ownMin_saveMinMessageId (n := n) present
  have before : ownMin db.toSetting channel userId ≤ n := by
    rw [ownMin, present]
    exact above
  have after : ∀ w m, (db.saveMinMessageId p (truthy n)).Sees channel.id peer.id w m ↔
      m ∈ db.refs ∧ m.peerId = peer.id ∧ channel.commonMin ≤ m.id ∧
        (if w = userId then n else ownMin db.toSetting channel w) ≤ m.id ∧
          JoinsShown channel w m := by
    intro w m
    have seen := sees_iff (db.saveMinMessageId p (truthy n)) channel peer w m found
    rw [own] at seen
    exact seen
  refine ⟨fun everyone => (by cases everyone), fun _ m older shown => ?_,
    fun _ w other m => ?_, fun w m newer shown => ?_, fun _ w m shown => ?_⟩
  · have bound := ((after userId m).mp shown).2.2.2.1
    rw [if_pos rfl] at bound
    omega
  · rw [after, sees_iff db channel peer w m found, if_neg other]
  · obtain ⟨stored, ours, common, mine, joins⟩ := (sees_iff db channel peer w m found).mp shown
    refine (after w m).mpr ⟨stored, ours, common, ?_, joins⟩
    split
    · exact newer
    · exact mine
  · obtain ⟨stored, ours, common, mine, joins⟩ := (after w m).mp shown
    refine (sees_iff db channel peer w m found).mpr ⟨stored, ours, common, ?_, joins⟩
    split at mine
    · rename_i same
      rw [same]
      exact Nat.le_trans before mine
    · exact mine

theorem commonMin_setMinAvailable (channel : Channel) (n : Nat) :
    (channel.setMinAvailable n).commonMin = n := by
  show max n (if channel.hiddenPrehistory = true then n else 0) = n
  split
  · exact Nat.max_self n
  · exact Nat.max_zero n

theorem cleared_saveMinAvailable (found : db.channels.get channel.id = some channel) :
    Cleared db (db.saveMinAvailable channel n) channel peer userId n true := by
  have saved : (db.saveMinAvailable channel n).channels.get channel.id =
      some (channel.setMinAvailable n) := by
    have modified := Table.get_modify_key db.channels (Channel.setMinAvailable n)
      (Channel.id_setMinAvailable n) channel.id channel.id
    rw [if_pos rfl, found] at modified
    exact modified
  have after : ∀ w m, (db.saveMinAvailable channel n).Sees channel.id peer.id w m ↔
      m ∈ db.refs ∧ m.peerId = peer.id ∧ n ≤ m.id ∧ ownMin db.toSetting channel w ≤ m.id ∧
        JoinsShown channel w m := by
    intro w m
    have seen :=
      sees_iff (db.saveMinAvailable channel n) (channel.setMinAvailable n) peer w m saved
    rw [commonMin_setMinAvailable] at seen
    exact seen
  refine ⟨fun _ w m older shown => ?_, fun user => (by cases user), fun user => (by cases user),
    fun w m newer shown => ?_, fun above w m shown => ?_⟩
  · exact absurd ((after w m).mp shown).2.2.1 (Nat.not_le.mpr older)
  · obtain ⟨stored, ours, -, mine, joins⟩ := (sees_iff db channel peer w m found).mp shown
    exact (after w m).mpr ⟨stored, ours, newer, mine, joins⟩
  · obtain ⟨stored, ours, newer, mine, joins⟩ := (after w m).mp shown
    have common : channel.commonMin ≤ n := Nat.not_lt.mp fun less => above ⟨rfl, less⟩
    refine (sees_iff db channel peer w m found).mpr ⟨stored, ours, ?_, mine, joins⟩
    exact Nat.le_trans common newer

theorem cleared_deleteRefs (found : db.channels.get channel.id = some channel) {older : List Nat}
    (all : ∀ m ∈ db.refs, m.peerId = peer.id → m.id < n → m.id ∈ older)
    (only : ∀ id ∈ older, id < n) :
    Cleared db ((db.deleteRefs older).syncLastMessageBulk [peer.id]) channel peer userId n
      true := by
  have after : ∀ w m,
      ((db.deleteRefs older).syncLastMessageBulk [peer.id]).Sees channel.id peer.id w m ↔
        (m ∈ db.refs ∧ older.contains m.id = false) ∧ m.peerId = peer.id ∧
          channel.commonMin ≤ m.id ∧ ownMin db.toSetting channel w ≤ m.id ∧
            JoinsShown channel w m := by
    intro w m
    have seen :=
      sees_iff ((db.deleteRefs older).syncLastMessageBulk [peer.id]) channel peer w m found
    rw [show m ∈ ((db.deleteRefs older).syncLastMessageBulk [peer.id]).refs ↔ _ from
      Table.mem_remove] at seen
    exact seen
  refine ⟨fun _ w m less shown => ?_, fun user => (by cases user), fun user => (by cases user),
    fun w m newer shown => ?_, fun _ w m shown => ?_⟩
  · obtain ⟨⟨stored, left⟩, ours, -⟩ := (after w m).mp shown
    rw [List.contains_iff_mem.mpr (all m stored ours less)] at left
    cases left
  · obtain ⟨stored, ours, rest⟩ := (sees_iff db channel peer w m found).mp shown
    refine (after w m).mpr ⟨⟨stored, ?_⟩, ours, rest⟩
    rw [Bool.eq_false_iff]
    intro gone
    exact absurd (only m.id (List.contains_iff_mem.mp gone)) (Nat.not_lt.mpr newer)
  · obtain ⟨⟨stored, -⟩, rest⟩ := (after w m).mp shown
    exact (sees_iff db channel peer w m found).mpr ⟨stored, rest⟩

/-- Where the query takes every row and one more would fit, the rows below the newest are the rest
of the list. -/
theorem older_iff (has : db.HasChannel channel peer) {maxId limit : Nat} {r : MessageRef}
    {rest : List MessageRef}
    (taken : newest MessageRef.id (db.rowsUpTo channel.id maxId) (limit + 1) = r :: rest)
    (room : (r :: rest).length ≤ limit) :
    (∀ m ∈ db.refs, m.peerId = peer.id → m.id < r.id → m.id ∈ rest.map MessageRef.id) ∧
      ∀ id ∈ rest.map MessageRef.id, id < r.id := by
  obtain ⟨-, here, greatest⟩ := newestUpTo_of_newest taken
  have bound : r.id ≤ maxId := ((mem_rowsUpTo maxId r has).mp here).2.2
  have every : (db.rowsUpTo channel.id maxId).length ≤ limit + 1 := by
    have length : (newest MessageRef.id (db.rowsUpTo channel.id maxId) (limit + 1)).length =
        min (limit + 1) (db.rowsUpTo channel.id maxId).length := length_newest _ _
    rw [taken] at length
    omega
  have listed : ∀ m, m ∈ r :: rest ↔ m ∈ db.rowsUpTo channel.id maxId := by
    intro m
    rw [← taken]
    exact mem_newest_of_length_le every
  constructor
  · intro m stored ours less
    have within : m ∈ r :: rest :=
      (listed m).mpr ((mem_rowsUpTo maxId m has).mpr ⟨stored, ours, by omega⟩)
    rcases List.mem_cons.mp within with rfl | later
    · exact absurd less (Nat.lt_irrefl m.id)
    · exact List.mem_map_of_mem later
  · intro id later
    obtain ⟨m, inRest, rfl⟩ := List.mem_map.mp later
    have atMost : m.id ≤ r.id := greatest m ((listed m).mp (List.mem_cons_of_mem r inRest))
    have distinct : ((db.rowsUpTo channel.id maxId).map MessageRef.id).Nodup :=
      db.refs.unique.sublist (List.filter_sublist.map MessageRef.id)
    have apart := nodup_newest distinct (limit + 1)
    rw [taken, List.map_cons, List.nodup_cons] at apart
    have other : m.id ≠ r.id := fun same => apart.1 (same ▸ later)
    omega

end Calls

section Call

variable {db : Db} {channel : Channel} {peer : Peer} (has : db.HasChannel channel peer)
  (threshold userId : Nat) (r : DeleteHistory) (asked : r.channelId = channel.id)

include has asked

theorem cleared_of_ok {after : Db} (ran : db.deleteHistory threshold userId r = .ok after) :
    Cleared db after channel peer userId (db.newestUpTo channel.id r.maxId) r.forEveryone := by
  rw [Db.deleteHistory, orRaise_bind_eq_ok] at ran
  obtain ⟨c, reached, ran⟩ := ran
  have same : c = channel := by
    split at reached
    · rw [asked, has.found] at reached
      exact (Option.some.inj reached).symm
    · cases reached
  rw [same, orRaise_bind_eq_ok] at ran
  obtain ⟨p, present, ran⟩ := ran
  cases everyone : r.forEveryone with
  | false =>
    rw [everyone, Bool.not_false, if_pos rfl] at ran
    split at ran
    · -- The user's bound is beyond all that the call reaches.
      rename_i beyond
      cases ran
      refine Cleared.refl fun m older shown => ?_
      have mine := ((sees_iff db channel peer userId m has.found).mp shown).2.2.2.1
      rw [ownMin, present, Option.bind_some] at mine
      omega
    · rename_i above
      cases ran
      exact cleared_saveMinMessageId has.found present (Nat.not_lt.mp above)
  | true =>
    rw [everyone, Bool.not_true, if_neg Bool.false_ne_true, check_bind_eq_ok, channelPeer_eq has,
      orRaise_bind_eq_ok] at ran
    obtain ⟨-, q, own, ran⟩ := ran
    cases own
    rw [rows_of_peer has] at ran
    cases taken : newest MessageRef.id (db.rowsUpTo channel.id r.maxId) (threshold + 1) with
    | nil =>
      rw [taken] at ran
      cases ran
    | cons m rest =>
      rw [(newestUpTo_of_newest taken).1]
      rw [taken, List.map_cons] at ran
      dsimp only at ran
      split at ran
      · cases ran
        exact cleared_saveMinAvailable has.found
      · rename_i few
        cases ran
        have room : (m :: rest).length ≤ threshold := by
          rw [← List.map_cons, List.length_map] at few
          exact Nat.not_lt.mp few
        obtain ⟨all, only⟩ := older_iff has taken room
        exact cleared_deleteRefs has.found all only

theorem settles_deleteHistory
    (reaches : r.forEveryone = true → ∃ m ∈ db.refs, m.peerId = peer.id ∧ m.id ≤ r.maxId) :
    Settles (db.deleteHistory threshold userId r) := by
  rw [Db.deleteHistory]
  cases reached : (if r.reaches then db.channels.get r.channelId else none) with
  | none => exact .inl ⟨406, _, rfl⟩
  | some c =>
    have same : c = channel := by
      split at reached
      · rw [asked, has.found] at reached
        exact (Option.some.inj reached).symm
      · cases reached
    rw [same]
    show Settles (orRaise (db.getParticipant channel userId) _ >>= _)
    refine settles_bind (settles_orRaise _ 400 _) fun p => ?_
    dsimp only
    cases everyone : r.forEveryone with
    | false =>
      rw [Bool.not_false, if_pos rfl]
      split
      · exact .inr ⟨_, rfl⟩
      · exact .inr ⟨_, rfl⟩
    | true =>
      rw [Bool.not_true, if_neg Bool.false_ne_true]
      refine settles_bind (settles_require _ 403 _) fun _ => ?_
      obtain ⟨m, stored, ours, within⟩ := reaches everyone
      have listed := (mem_rowsUpTo r.maxId m has).mpr ⟨stored, ours, within⟩
      rw [channelPeer_eq has]
      dsimp only [orRaise, bind, Except.bind]
      rw [rows_of_peer has]
      cases taken : newest MessageRef.id (db.rowsUpTo channel.id r.maxId) (threshold + 1) with
      | nil =>
        have fewer : 1 ≤ threshold + 1 := Nat.le_add_left 1 threshold
        have none : newest MessageRef.id (db.rowsUpTo channel.id r.maxId) 1 = [] := by
          rw [← take_newest _ fewer, taken, List.take_nil]
        rw [newest_one_eq_nil_iff.mp none] at listed
        cases listed
      | cons first rest =>
        show Settles (if _ then _ else _)
        split
        · exact .inr ⟨_, rfl⟩
        · exact .inr ⟨_, rfl⟩

/-- A call leaves of the messages up to its identifier at most the newest one, keeps what is newer,
and where there is one to leave it ends with no exception but an error for the client. -/
theorem deleteHistory_cleared :
    (∀ m ∈ db.refs, m.peerId = peer.id →
      (m.id ≤ r.maxId ↔ m.id ≤ db.newestUpTo channel.id r.maxId)) ∧
    (∀ after, db.deleteHistory threshold userId r = .ok after →
      Cleared db after channel peer userId (db.newestUpTo channel.id r.maxId) r.forEveryone) ∧
    ((r.forEveryone = true → ∃ m ∈ db.refs, m.peerId = peer.id ∧ m.id ≤ r.maxId) →
      Settles (db.deleteHistory threshold userId r)) :=
  ⟨fun _ stored ours => ⟨le_newestUpTo has stored ours, fun le => Nat.le_trans le newestUpTo_le⟩,
    fun _ ran => cleared_of_ok has threshold userId r asked ran,
    fun reaches => settles_deleteHistory has threshold userId r asked reaches⟩

end Call

/-- A supergroup with a creator, a member and two messages. -/
private def talkGroup : Channel where
  creatorId := 1
  bannedRights := 0
  id := 52
  channel := false
  supergroup := true
  nojoinAllowView := false
  hiddenPrehistory := false
  joinToSend := false
  discussionId := none
  isDiscussion := false
  slowmodeSeconds := none
  deleted := false
  version := 1
  minAvailableId := none
  minAvailableIdForce := none

private def talkMember : ChatParticipant := ⟨⟨2, 0, 0, false⟩, 52, none⟩

private def talkPeer : Peer := ⟨62, none, .channel 52, none, none, 0⟩

private def talkRef (id : Nat) : MessageRef :=
  ⟨id, 62, ⟨id, .regular, 1, [], 0, none, false, none⟩, false, none, none⟩

private def talkDb : Db where
  peers := Table.insert Table.empty talkPeer
  channels := Table.insert Table.empty talkGroup
  participants := Table.insert Table.empty talkMember
  mentions := []
  readStates := []
  dialogs := []
  refs := Table.insert (Table.insert Table.empty (talkRef 5)) (talkRef 6)

private theorem talkDb_has : talkDb.HasChannel talkGroup talkPeer where
  found := rfl
  here := Table.mem_iff_get.mpr rfl
  only := by
    intro p listed
    have same : p = talkPeer := List.mem_singleton.mp listed
    rw [same]
    exact ⟨fun _ => rfl, fun _ => rfl⟩

/-- The member clears the group up to its last message. -/
theorem member_cleared :
    Cleared talkDb (talkDb.saveMinMessageId talkMember (some 6)) talkGroup talkPeer 2 6 false :=
  (deleteHistory_cleared talkDb_has 1000 2 ⟨52, true, 6, false⟩ rfl).2.1 _ rfl

/-- The last message itself is still seen. -/
theorem last_still_seen :
    ¬ ∀ (db after : Db) (channel : Channel) (peer : Peer) (threshold userId : Nat)
      (r : DeleteHistory), db.HasChannel channel peer → r.channelId = channel.id →
      db.deleteHistory threshold userId r = .ok after →
      ∀ m : MessageRef, m.id ≤ r.maxId → ¬ after.Sees channel.id peer.id userId m := by
  intro unseen
  have gone := unseen talkDb (talkDb.saveMinMessageId talkMember (some 6)) talkGroup talkPeer 1000 2
    ⟨52, true, 6, false⟩ talkDb_has rfl rfl (talkRef 6) (Nat.le_refl 6)
  exact gone ⟨Table.mem_iff_get.mpr rfl, rfl, talkGroup, rfl, by decide⟩

end Piltover.History
