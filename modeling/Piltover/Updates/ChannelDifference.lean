/- source: piltover/app/handlers/updates.py, piltover/db/models/channel_update.py
   digest: What getChannelDifference makes of several rows for one message. -/

import Mathlib.Algebra.Order.Ring.Int
import Mathlib.Data.List.Sort
import Piltover.Foundation.OrderedDict
import Piltover.Updates.Messages

set_option autoImplicit false

namespace Piltover.Updates

open Piltover.Foundation

inductive ChannelUpdateType
  | updateChannel | newMessage | editMessage | deleteMessages | updateMinAvailableId
  | pinMessages | unpinMessages
  deriving DecidableEq, Repr

inductive PeerType
  | self | user | chat | channel
  deriving DecidableEq, Repr

/-- A row of `ChannelUpdate`; `extraData` are the longs that its bytes pack. Only the rows of new and
of edited messages refer to their message. -/
structure ChannelUpdate where
  type : ChannelUpdateType
  pts : Int
  ptsCount : Int
  extraData : List Int
  message : Option MessageRef
  refers : message.isSome ↔ type = .newMessage ∨ type = .editMessage

def ChannelUpdate.messageId (update : ChannelUpdate) : Option Nat := update.message.map MessageRef.id

inductive ChannelUpdateTl
  | updateChannel (channelId : Nat)
  | updateEditChannelMessage (message : MessageToFormat) (pts ptsCount : Int)
  | updateDeleteChannelMessages (channelId : Nat) (messages : List Int) (pts ptsCount : Int)
  | updateChannelAvailableMessages (channelId : Nat) (availableMinId : Int)
  | updatePinnedChannelMessages (pinned : Bool) (channelId : Nat) (messages : List Int)
      (pts ptsCount : Int)
  deriving DecidableEq, Repr

namespace ChannelUpdate

/-- The first `pts_count` longs of the extra data; reading beyond its end raises. -/
def readMessageIds (update : ChannelUpdate) : Except Failure (List Int) :=
  if update.ptsCount.toNat ≤ update.extraData.length then
    .ok (update.extraData.take update.ptsCount.toNat)
  else .error .other

/-- `ChannelUpdate.to_tl`, with what it adds to the answer's mentions. -/
def toTl (update : ChannelUpdate) (channelId : Nat) (ucc : UsersChatsChannels)
    (editedMessages : OrderedDict Nat MessageToFormat) :
    Except Failure (Option ChannelUpdateTl × UsersChatsChannels) :=
  let ucc := ucc.addChannel channelId
  match update.type with
  | .updateChannel => .ok (some (.updateChannel channelId), ucc)
  | .newMessage => .ok (none, ucc)
  | .editMessage =>
    match update.message with
    | none => .ok (none, ucc)
    | some ref =>
      match editedMessages.lookup ref.id with
      | none => .ok (none, ucc)
      | some message =>
        .ok (some (.updateEditChannelMessage message update.pts 1),
          ucc.addMessage ref.contentId)
  | .deleteMessages =>
    update.readMessageIds.map fun messages =>
      (some (.updateDeleteChannelMessages channelId messages update.pts 1), ucc)
  | .updateMinAvailableId =>
    match update.extraData with
    | [availableMinId] => .ok (some (.updateChannelAvailableMessages channelId availableMinId), ucc)
    | _ => .error .other
  | .pinMessages | .unpinMessages =>
    update.readMessageIds.map fun messages =>
      (some (.updatePinnedChannelMessages (update.type = .pinMessages) channelId messages
        update.pts update.ptsCount), ucc)

end ChannelUpdate

/-- A channel with its rows of `ChannelUpdate`, in no particular order. -/
structure Channel where
  id : Nat
  pts : Int
  updates : List ChannelUpdate

/-- `channel` is what `Peer.type_and_id_from_input_raise` makes of the given channel. -/
structure GetChannelDifference where
  channel : Except Failure (PeerType × Nat)
  pts : Int
  limit : Int

structure ChannelDifference where
  final : Bool
  pts : Int
  timeout : Nat
  newMessages : List MessageToFormat
  otherUpdates : List ChannelUpdateTl
  mentioned : UsersChatsChannels

inductive ChannelDifferenceAnswer
  | empty (final : Bool) (pts : Int) (timeout : Nat)
  | difference (d : ChannelDifference)

def CHANNEL_UPDATES_TIMEOUT : Nat := 10

def channelInvalid : Failure := .rpc 400 "CHANNEL_INVALID"

namespace Channel

variable (channel : Channel)

def serverPts : Int := (channel.updates.map ChannelUpdate.pts).max?.getD 0

/-- The rows after `pts`, ordered by pts, `limit` of them at most. -/
def window (pts limit : Int) : List ChannelUpdate :=
  ((channel.updates.filter fun update => pts < update.pts).insertionSort
    (fun a b => a.pts ≤ b.pts)).take limit.toNat

end Channel

def newMessageIds (newUpdates : List ChannelUpdate) : List (Option Nat) :=
  (newUpdates.filter fun update => update.type = .newMessage).map ChannelUpdate.messageId

def updateByMessageId (newUpdates : List ChannelUpdate) : OrderedDict Nat ChannelUpdate :=
  OrderedDict.ofPairs (newUpdates.filterMap fun update => update.messageId.map (·, update))

/-- The type of the row that `update_by_message_id` has for the message. -/
def indexedAs (newUpdates : List ChannelUpdate) (type : ChannelUpdateType)
    (message : MessageToFormat) : Bool :=
  ((updateByMessageId newUpdates).lookup message.id).any fun update => update.type = type

def newMessages (newUpdates : List ChannelUpdate) : List MessageToFormat :=
  (toTlBulkMaybecached (newUpdates.filterMap ChannelUpdate.message)).filter
    (indexedAs newUpdates .newMessage)

def editedMessages (newUpdates : List ChannelUpdate) : OrderedDict Nat MessageToFormat :=
  OrderedDict.ofPairs (((toTlBulkMaybecached (newUpdates.filterMap ChannelUpdate.message)).filter
    (indexedAs newUpdates .editMessage)).map fun message => (message.id, message))

/-- The loop over `new_updates` that fills `other_updates`. -/
def collectOtherUpdates (channelId : Nat) (newIds : List (Option Nat))
    (edited : OrderedDict Nat MessageToFormat) :
    List ChannelUpdate → UsersChatsChannels →
      Except Failure (List ChannelUpdateTl × UsersChatsChannels)
  | [], ucc => .ok ([], ucc)
  | update :: rest, ucc =>
    if update.type = .editMessage ∧ update.messageId ∈ newIds then
      collectOtherUpdates channelId newIds edited rest ucc
    else match update.toTl channelId ucc edited with
      | .error failure => .error failure
      | .ok (updateTl, ucc) =>
        match collectOtherUpdates channelId newIds edited rest ucc with
        | .error failure => .error failure
        | .ok (others, ucc) => .ok (updateTl.toList ++ others, ucc)

/-- `get_channel_difference`, from the channel on. -/
def Channel.difference (channel : Channel) (pts limit : Int) :
    Except Failure ChannelDifferenceAnswer :=
  -- `ChannelDifferenceTooLong` is never made: the peer of its dialog was not loaded with the fields
  -- that `Dialog.to_tl` reads, which raises
  if pts + limit < channel.serverPts then .error .other
  -- the query set does not accept a negative limit
  else if limit < 0 then .error .other
  else
    let newUpdates := channel.window pts limit
    match newUpdates.getLast? with
    | none => .ok (.empty true channel.pts CHANNEL_UPDATES_TIMEOUT)
    | some last =>
      let hasMore := channel.updates.any fun update => last.pts < update.pts
      let ucc := (newUpdates.filterMap ChannelUpdate.message).foldl
        (fun ucc message => ucc.addMessage message.contentId) ⟨∅, ∅⟩
      match collectOtherUpdates channel.id (newMessageIds newUpdates)
          (editedMessages newUpdates) newUpdates ucc with
      | .error failure => .error failure
      | .ok (otherUpdates, ucc) =>
        .ok (.difference ⟨!hasMore, last.pts, CHANNEL_UPDATES_TIMEOUT, newMessages newUpdates,
          otherUpdates, ucc⟩)

/-- `Peer.get_or_none(channel_id=…)`, if the request is for a channel at all. -/
def GetChannelDifference.find (channels : Nat → Option Channel) (request : GetChannelDifference) :
    Except Failure Channel :=
  match request.channel with
  | .error failure => .error failure
  | .ok (peerType, channelId) =>
    if peerType ≠ .channel then .error channelInvalid
    else match channels channelId with
      | none => .error channelInvalid
      | some channel => .ok channel

def getChannelDifference (channels : Nat → Option Channel) (request : GetChannelDifference) :
    Except Failure ChannelDifferenceAnswer :=
  match request.find channels with
  | .error failure => .error failure
  | .ok channel => channel.difference request.pts request.limit

def rowsOf (newUpdates : List ChannelUpdate) (messageId : Nat) : List ChannelUpdate :=
  newUpdates.filter fun update => update.messageId = some messageId

/-- Every message that is new in the window is among the new messages exactly once, and every other
message that was edited in it is in an update of its own. -/
structure Delivered (newUpdates : List ChannelUpdate) (d : ChannelDifference) : Prop where
  new : ∀ update ∈ newUpdates, update.type = .newMessage → ∀ messageId ∈ update.messageId,
    (d.newMessages.map MessageToFormat.id).count messageId = 1
  edited : ∀ update ∈ newUpdates, update.type = .editMessage → ∀ messageId ∈ update.messageId,
    (∀ other ∈ newUpdates, other.type = .newMessage → other.messageId ≠ some messageId) →
      ∃ pts ptsCount, .updateEditChannelMessage ⟨messageId⟩ pts ptsCount ∈ d.otherUpdates

/-- A message that is new in the window has no other row in it. -/
def NewRowsAlone (newUpdates : List ChannelUpdate) : Prop :=
  ∀ update ∈ newUpdates, update.type = .newMessage → ∀ messageId ∈ update.messageId,
    (rowsOf newUpdates messageId).length = 1

instance (newUpdates : List ChannelUpdate) : Decidable (NewRowsAlone newUpdates) :=
  inferInstanceAs (Decidable (∀ update ∈ newUpdates, update.type = .newMessage →
    ∀ messageId ∈ update.messageId, (rowsOf newUpdates messageId).length = 1))

section Window

variable {newUpdates : List ChannelUpdate} {messageId : Nat}

theorem mem_rowsOf {update : ChannelUpdate} :
    update ∈ rowsOf newUpdates messageId ↔
      update ∈ newUpdates ∧ update.messageId = some messageId := by
  rw [rowsOf, List.mem_filter, decide_eq_true_iff]

private theorem mem_indexed {update : ChannelUpdate} :
    (messageId, update) ∈ newUpdates.filterMap (fun update => update.messageId.map (·, update)) ↔
      update ∈ rowsOf newUpdates messageId := by
  rw [List.mem_filterMap, mem_rowsOf]
  constructor
  · rintro ⟨other, mem, paired⟩
    obtain ⟨id, has, same⟩ := Option.map_eq_some_iff.mp paired
    cases same
    exact ⟨mem, has⟩
  · rintro ⟨mem, has⟩
    exact ⟨update, mem, by rw [has]; rfl⟩

theorem mem_rowsOf_of_lookup {update : ChannelUpdate}
    (found : (updateByMessageId newUpdates).lookup messageId = some update) :
    update ∈ rowsOf newUpdates messageId :=
  mem_indexed.mp (OrderedDict.mem_of_lookup_ofPairs found)

theorem exists_lookup {update : ChannelUpdate} (mem : update ∈ rowsOf newUpdates messageId) :
    ∃ indexed, (updateByMessageId newUpdates).lookup messageId = some indexed :=
  OrderedDict.exists_lookup_ofPairs (mem_indexed.mpr mem)

theorem indexedAs_of_rows {type : ChannelUpdateType} {update : ChannelUpdate}
    (mem : update ∈ rowsOf newUpdates messageId)
    (same : ∀ other ∈ rowsOf newUpdates messageId, other.type = type) :
    indexedAs newUpdates type ⟨messageId⟩ = true := by
  obtain ⟨indexed, found⟩ := exists_lookup mem
  change ((updateByMessageId newUpdates).lookup messageId).any _ = true
  rw [found]
  exact decide_eq_true (same indexed (mem_rowsOf_of_lookup found))

theorem count_toTlBulkMaybecached :
    ((toTlBulkMaybecached (newUpdates.filterMap ChannelUpdate.message)).map
      MessageToFormat.id).count messageId = (rowsOf newUpdates messageId).length := by
  rw [toTlBulkMaybecached, List.map_map, rowsOf, ← List.countP_eq_length_filter,
    List.map_filterMap, List.count_filterMap]
  refine List.countP_congr fun update _ => ?_
  rw [decide_eq_true_iff, beq_iff_eq]
  exact Iff.rfl

/-- A message is new as often as it has rows, if the row that its index names is that of a new
message, and not at all otherwise. -/
theorem count_newMessages :
    ((newMessages newUpdates).map MessageToFormat.id).count messageId =
      if indexedAs newUpdates .newMessage ⟨messageId⟩ then (rowsOf newUpdates messageId).length
      else 0 := by
  rw [← count_toTlBulkMaybecached, newMessages]
  generalize toTlBulkMaybecached _ = messages
  induction messages with
  | nil => simp
  | cons message rest ih =>
    rcases eq_or_ne message.id messageId with rfl | ne
    · have same : (⟨message.id⟩ : MessageToFormat) = message := rfl
      rw [same] at ih ⊢
      cases kind : indexedAs newUpdates .newMessage message
      · rw [kind] at ih
        rw [List.filter_cons_of_neg (by rw [kind]; exact Bool.false_ne_true), ih]
        rfl
      · rw [kind] at ih
        rw [List.filter_cons_of_pos kind, List.map_cons, List.count_cons_self, ih,
          List.map_cons, List.count_cons_self]
        rfl
    · rw [List.map_cons, List.count_cons_of_ne ne, ← ih, List.filter_cons]
      split
      · rw [List.map_cons, List.count_cons_of_ne ne]
      · rfl

theorem count_newMessages_eq_one_iff {update : ChannelUpdate} (mem : update ∈ newUpdates)
    (new : update.type = .newMessage) (has : update.messageId = some messageId) :
    ((newMessages newUpdates).map MessageToFormat.id).count messageId = 1 ↔
      (rowsOf newUpdates messageId).length = 1 := by
  have here : update ∈ rowsOf newUpdates messageId := mem_rowsOf.mpr ⟨mem, has⟩
  rw [count_newMessages]
  constructor
  · intro once
    split at once
    · exact once
    · cases once
  · intro alone
    obtain ⟨only, rows⟩ := List.length_eq_one_iff.mp alone
    have same : ∀ other ∈ rowsOf newUpdates messageId, other.type = .newMessage := by
      rw [rows] at here ⊢
      intro other otherMem
      rw [List.mem_singleton.mp otherMem, ← List.mem_singleton.mp here]
      exact new
    rw [if_pos (indexedAs_of_rows here same)]
    exact alone

theorem lookup_editedMessages {update : ChannelUpdate} (mem : update ∈ newUpdates)
    (has : update.messageId = some messageId)
    (onlyEdits : ∀ other ∈ newUpdates, other.type = .newMessage →
      other.messageId ≠ some messageId) :
    (editedMessages newUpdates).lookup messageId = some ⟨messageId⟩ := by
  have rows : ∀ other ∈ rowsOf newUpdates messageId, other.type = .editMessage := by
    intro other otherMem
    obtain ⟨listed, otherHas⟩ := mem_rowsOf.mp otherMem
    have refers : other.message.isSome := by
      cases ref : other.message with
      | some ref => rfl
      | none =>
        rw [ChannelUpdate.messageId, ref] at otherHas
        cases otherHas
    rcases other.refers.mp refers with new | edit
    · exact absurd otherHas (onlyEdits other listed new)
    · exact edit
  have indexed := indexedAs_of_rows (mem_rowsOf.mpr ⟨mem, has⟩) rows
  have listed : (⟨messageId⟩ : MessageToFormat) ∈
      toTlBulkMaybecached (newUpdates.filterMap ChannelUpdate.message) := by
    obtain ⟨ref, is, same⟩ := Option.map_eq_some_iff.mp has
    exact List.mem_map.mpr ⟨ref, List.mem_filterMap.mpr ⟨update, mem, is⟩, by rw [same]⟩
  have paired : (messageId, (⟨messageId⟩ : MessageToFormat)) ∈
      ((toTlBulkMaybecached (newUpdates.filterMap ChannelUpdate.message)).filter
        (indexedAs newUpdates .editMessage)).map fun message => (message.id, message) :=
    List.mem_map.mpr ⟨⟨messageId⟩, List.mem_filter.mpr ⟨listed, indexed⟩, rfl⟩
  obtain ⟨message, found⟩ := OrderedDict.exists_lookup_ofPairs paired
  obtain ⟨other, _, same⟩ := List.mem_map.mp (OrderedDict.mem_of_lookup_ofPairs found)
  cases same
  exact found

theorem mem_collectOtherUpdates {channelId : Nat} {newIds : List (Option Nat)}
    {edited : OrderedDict Nat MessageToFormat} {rest : List ChannelUpdate}
    {ucc after : UsersChatsChannels} {others : List ChannelUpdateTl}
    (collected : collectOtherUpdates channelId newIds edited rest ucc = .ok (others, after))
    {update : ChannelUpdate} (mem : update ∈ rest)
    (kept : ¬ (update.type = .editMessage ∧ update.messageId ∈ newIds)) :
    ∃ before updateTl then_, update.toTl channelId before edited = .ok (updateTl, then_) ∧
      ∀ tl ∈ updateTl, tl ∈ others := by
  induction rest generalizing ucc others with
  | nil => cases mem
  | cons head rest ih =>
    rw [collectOtherUpdates] at collected
    split at collected
    · rename_i skipped
      rcases List.mem_cons.mp mem with rfl | later
      · exact absurd skipped kept
      · exact ih collected later
    · split at collected
      · cases collected
      · rename_i updateTl then_ converted
        split at collected
        · cases collected
        · rename_i more _ collectedMore
          cases collected
          rcases List.mem_cons.mp mem with rfl | later
          · refine ⟨ucc, updateTl, then_, converted, fun tl is => ?_⟩
            exact List.mem_append_left _ (Option.mem_toList.mpr is)
          · obtain ⟨before, otherTl, then', converted', among⟩ := ih collectedMore later
            exact ⟨before, otherTl, then', converted',
              fun tl is => List.mem_append_right _ (among tl is)⟩

end Window

/-- The answer's rows are the channel's window. -/
def GetChannelDifference.window (channels : Nat → Option Channel) (request : GetChannelDifference) :
    List ChannelUpdate :=
  match request.find channels with
  | .error _ => []
  | .ok channel => channel.window request.pts request.limit

private theorem difference_spec {channel : Channel} {pts limit : Int} {d : ChannelDifference}
    (answered : channel.difference pts limit = .ok (.difference d)) :
    d.newMessages = newMessages (channel.window pts limit) ∧
      ∃ ucc, collectOtherUpdates channel.id (newMessageIds (channel.window pts limit))
        (editedMessages (channel.window pts limit)) (channel.window pts limit) ucc =
          .ok (d.otherUpdates, d.mentioned) := by
  simp only [Channel.difference] at answered
  split at answered
  · cases answered
  · split at answered
    · cases answered
    · split at answered
      · cases answered
      · split at answered
        · cases answered
        · rename_i collected
          cases answered
          exact ⟨rfl, _, collected⟩

private theorem edited_delivered {channelId : Nat} {newUpdates : List ChannelUpdate}
    {d : ChannelDifference} {ucc : UsersChatsChannels}
    (collected : collectOtherUpdates channelId (newMessageIds newUpdates)
      (editedMessages newUpdates) newUpdates ucc = .ok (d.otherUpdates, d.mentioned))
    {update : ChannelUpdate} (mem : update ∈ newUpdates) (edit : update.type = .editMessage)
    {messageId : Nat} (has : update.messageId = some messageId)
    (onlyEdits : ∀ other ∈ newUpdates, other.type = .newMessage →
      other.messageId ≠ some messageId) :
    ∃ pts ptsCount, .updateEditChannelMessage ⟨messageId⟩ pts ptsCount ∈ d.otherUpdates := by
  have kept : ¬ (update.type = .editMessage ∧ update.messageId ∈ newMessageIds newUpdates) := by
    rintro ⟨_, isNew⟩
    obtain ⟨other, listed, same⟩ := List.mem_map.mp isNew
    obtain ⟨otherMem, new⟩ := List.mem_filter.mp listed
    exact onlyEdits other otherMem (of_decide_eq_true new) (same.trans has)
  obtain ⟨before, updateTl, after, converted, among⟩ := mem_collectOtherUpdates collected mem kept
  obtain ⟨ref, is, sameId⟩ := Option.map_eq_some_iff.mp has
  have found := lookup_editedMessages mem has onlyEdits
  rw [← sameId] at found
  simp only [ChannelUpdate.toTl, edit, is, found] at converted
  cases converted
  exact ⟨update.pts, 1, sameId ▸ among _ rfl⟩

/-- An answer delivers its window exactly if no message that is new in it has another row in it: a
message that was also edited is neither among the new messages nor in an update. -/
theorem channel_difference_delivers_iff (channels : Nat → Option Channel)
    (request : GetChannelDifference) (d : ChannelDifference)
    (answered : getChannelDifference channels request = .ok (.difference d)) :
    Delivered (request.window channels) d ↔ NewRowsAlone (request.window channels) := by
  rw [getChannelDifference] at answered
  rw [GetChannelDifference.window]
  cases found : request.find channels with
  | error failure =>
    rw [found] at answered
    cases answered
  | ok channel =>
    rw [found] at answered
    obtain ⟨new, ucc, collected⟩ := difference_spec answered
    constructor
    · intro delivered update mem isNew messageId has
      have once := delivered.new update mem isNew messageId has
      rw [new] at once
      exact (count_newMessages_eq_one_iff mem isNew has).mp once
    · intro alone
      refine ⟨fun update mem isNew messageId has => ?_, fun update mem edit messageId has => ?_⟩
      · rw [new]
        exact (count_newMessages_eq_one_iff mem isNew has).mpr (alone update mem isNew messageId has)
      · exact edited_delivered collected mem edit has

def newRow (pts : Int) (messageId : Nat) : ChannelUpdate :=
  ⟨.newMessage, pts, 1, [], some ⟨messageId, messageId⟩, ⟨fun _ => .inl rfl, fun _ => rfl⟩⟩

def editRow (pts : Int) (messageId : Nat) : ChannelUpdate :=
  ⟨.editMessage, pts, 1, [], some ⟨messageId, messageId⟩, ⟨fun _ => .inr rfl, fun _ => rfl⟩⟩

/-- Channel 1 with the given rows. -/
def channelWith (updates : List ChannelUpdate) (channelId : Nat) : Option Channel :=
  if channelId = 1 then some ⟨1, 3, updates⟩ else none

def fromStart : GetChannelDifference := ⟨.ok (.channel, 1), 0, 100⟩

/-- Two new messages, and a third one that was edited. -/
theorem channel_difference_delivers_iff_apart :
    ∃ d, getChannelDifference (channelWith [editRow 3 7, newRow 1 5, newRow 2 6]) fromStart =
        .ok (.difference d) ∧
      Delivered (fromStart.window (channelWith [editRow 3 7, newRow 1 5, newRow 2 6])) d :=
  ⟨_, rfl, (channel_difference_delivers_iff _ _ _ rfl).mpr (by decide)⟩

/-- A message that is sent and then edited is not delivered at all. -/
theorem edited_new_message_dropped :
    ∃ d, getChannelDifference (channelWith [newRow 1 5, editRow 2 5]) fromStart =
        .ok (.difference d) ∧ d.newMessages = [] ∧ d.otherUpdates = [] ∧
      ¬ Delivered (fromStart.window (channelWith [newRow 1 5, editRow 2 5])) d := by
  refine ⟨_, rfl, rfl, rfl, fun delivered => ?_⟩
  have once := delivered.new (newRow 1 5) (.head _) rfl 5 rfl
  cases once

end Piltover.Updates
