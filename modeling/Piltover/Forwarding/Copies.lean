/- source: piltover/db/models/message_ref.py, piltover/utils/single_element_list.py
   digest: The references of forwarded copies: one for each message and peer, with their replies. -/

import Piltover.Contents.Content
import Piltover.Foundation.OrderedDict
import Piltover.Foundation.Table
import Mathlib.Data.List.Zip

set_option autoImplicit false

namespace Piltover.Forwarding

open Piltover.Contents
open Piltover.Foundation

section Lists

variable {α β γ : Type}

theorem lt_of_pairwise {l : List α} {f g : α → Nat}
    (grow : l.Pairwise fun a b => f a < f b ∧ g a ≤ g b) {a b : α} (here : a ∈ l) (there : b ∈ l)
    (less : g a < g b) : f a < f b := by
  induction grow with
  | nil => cases here
  | @cons first rest before _ ih =>
    rcases List.mem_cons.mp here with rfl | later
    · rcases List.mem_cons.mp there with rfl | after
      · exact absurd less (Nat.lt_irrefl _)
      · exact (before b after).1
    · rcases List.mem_cons.mp there with rfl | after
      · have above := (before a later).2
        omega
      · exact ih later after

theorem mem_zip_map_right {l : List α} {m : List β} {f : β → γ} {a : α} {c : γ} :
    (a, c) ∈ l.zip (m.map f) ↔ ∃ b, (b, a) ∈ m.zip l ∧ f b = c := by
  rw [List.zip_map_right, List.mem_map]
  constructor
  · rintro ⟨⟨d, b⟩, listed, same⟩
    cases same
    rw [← List.zip_swap] at listed
    obtain ⟨⟨b', d'⟩, swapped, same⟩ := List.mem_map.mp listed
    cases same
    exact ⟨b', swapped, rfl⟩
  · rintro ⟨b, listed, rfl⟩
    refine ⟨(a, b), ?_, rfl⟩
    rw [← List.zip_swap]
    exact List.mem_map.mpr ⟨(b, a), listed, rfl⟩

theorem mem_zip_of_zip {l : List α} {m : List β} {n : List γ} {a : α} {b : β} {c : γ}
    (listed : (a, b, c) ∈ l.zip (m.zip n)) : (a, b) ∈ l.zip m := by
  obtain ⟨k, found⟩ := List.mem_iff_getElem?.mp listed
  obtain ⟨left, right⟩ := List.getElem?_zip_eq_some.mp found
  exact List.mem_iff_getElem?.mpr
    ⟨k, List.getElem?_zip_eq_some.mpr ⟨left, (List.getElem?_zip_eq_some.mp right).1⟩⟩

end Lists

/-- `("peer", "content")`. -/
def place (r : MessageRef) : Nat × Nat := (r.peer.id, r.content.id)

/-- `("peer", "random_id", "random_user")`, which constrains nothing where one of them is null. -/
def randomKey (r : MessageRef) : Option (Nat × Int × Nat) :=
  match r.randomId, r.randomUserId with
  | some randomId, some userId => some (r.peer.id, randomId, userId)
  | _, _ => none

/-- The references, under the constraints of `MessageRef.Meta.unique_together`. -/
structure Refs where
  table : Table MessageRef.id
  contentOnce : (table.rows.map place).Nodup
  randomOnce : (table.rows.filterMap randomKey).Nodup

/-- Give the messages consecutive identifiers. -/
def numbered (first : Nat) (messages : List MessageRef) : List MessageRef :=
  (messages.zipIdx first).map fun m => { m.1 with id := m.2 }

section Numbered

variable {first : Nat} {messages : List MessageRef}

theorem ids_numbered :
    (numbered first messages).map MessageRef.id = List.range' first messages.length := by
  rw [numbered, List.map_map, ← List.zipIdx_map_snd]
  rfl

theorem map_numbered {α : Type} (f : MessageRef → α)
    (blind : ∀ (m : MessageRef) (n : Nat), f { m with id := n } = f m) :
    (numbered first messages).map f = messages.map f := by
  have seen : f ∘ (fun m : MessageRef × Nat => { m.1 with id := m.2 }) = f ∘ Prod.fst :=
    funext fun m => blind m.1 m.2
  rw [numbered, List.map_map, seen, ← List.map_map, List.zipIdx_map_fst]

theorem randomKey_eq_some {m : MessageRef} {key : Nat × Int × Nat} : randomKey m = some key ↔
    m.peer.id = key.1 ∧ m.randomId = some key.2.1 ∧ m.randomUserId = some key.2.2 := by
  unfold randomKey
  obtain ⟨peerId, randomId, userId⟩ := key
  cases m.randomId <;> cases m.randomUserId <;> simp

theorem filterMap_numbered : (numbered first messages).filterMap randomKey =
    messages.filterMap randomKey := by
  have mapped : ∀ l : List MessageRef,
      l.filterMap randomKey = (l.map randomKey).filterMap fun key => key := fun l => by
    rw [List.filterMap_map]
    rfl
  rw [mapped, mapped, map_numbered randomKey fun _ _ => rfl]

theorem pairwise_numbered : (numbered first messages).Pairwise fun m n => m.id < n.id := by
  have sorted := List.pairwise_lt_range' (s := first) (n := messages.length)
  rwa [← ids_numbered, List.pairwise_map] at sorted

theorem le_of_mem_numbered {m : MessageRef} (listed : m ∈ numbered first messages) :
    first ≤ m.id := by
  have number := List.mem_map_of_mem (f := MessageRef.id) listed
  rw [ids_numbered, List.mem_range'_1] at number
  exact number.1

end Numbered

namespace Refs

def bulkCreate (refs : Refs) (messages : List MessageRef) : Except Failure Refs :=
  let rows := refs.table.rows ++ numbered refs.table.nextKey messages
  if fits : (rows.map place).Nodup ∧ (rows.filterMap randomKey).Nodup then
    .ok {
      table := ⟨rows, by
        rw [List.map_append, ids_numbered, List.nodup_append]
        refine ⟨refs.table.unique, List.nodup_range', ?_⟩
        intro a old b new
        obtain ⟨r, here, rfl⟩ := List.mem_map.mp old
        have below := refs.table.lt_nextKey here
        have above := (List.mem_range'_1.mp new).1
        omega⟩
      contentOnce := fits.1
      randomOnce := fits.2 }
  else .error .other

theorem bulkCreate_of_fits {refs : Refs} {messages : List MessageRef}
    (places : ((refs.table.rows ++ numbered refs.table.nextKey messages).map place).Nodup)
    (keys : ((refs.table.rows ++ numbered refs.table.nextKey messages).filterMap randomKey).Nodup) :
    ∃ after, refs.bulkCreate messages = .ok after ∧
      after.table.rows = refs.table.rows ++ numbered refs.table.nextKey messages := by
  rw [bulkCreate, dif_pos ⟨places, keys⟩]
  exact ⟨_, rfl, rfl⟩

def withReply (messages : List MessageRef) (r : MessageRef) : MessageRef :=
  match messages.find? fun m => m.id == r.id with
  | some m => { r with replyTo := m.replyTo }
  | none => r

theorem withReply_keeps (messages : List MessageRef) (r : MessageRef) :
    (withReply messages r).id = r.id ∧ place (withReply messages r) = place r ∧
      randomKey (withReply messages r) = randomKey r := by
  unfold withReply
  split <;> exact ⟨rfl, rfl, rfl⟩

theorem withReply_of_absent {messages : List MessageRef} {r : MessageRef}
    (absent : ∀ m ∈ messages, m.id ≠ r.id) : withReply messages r = r := by
  unfold withReply
  split
  · rename_i m found
    have same := List.find?_some found
    exact absurd (beq_iff_eq.mp same) (absent m (List.mem_of_find?_eq_some found))
  · rfl

theorem withReply_of_mem {messages : List MessageRef} {r m : MessageRef} (listed : m ∈ messages)
    (same : m.id = r.id) (only : ∀ n ∈ messages, n.id = r.id → n = m) :
    withReply messages r = { r with replyTo := m.replyTo } := by
  unfold withReply
  split
  · rename_i n found
    have hit := List.find?_some found
    rw [only n (List.mem_of_find?_eq_some found) (beq_iff_eq.mp hit)]
  · rename_i missing
    exact absurd (beq_iff_eq.mpr same) (List.find?_eq_none.mp missing m listed)

/-- `MessageRef.bulk_update(..., ["reply_to_id"])`. -/
def updateReplies (refs : Refs) (messages : List MessageRef) : Refs where
  table := ⟨refs.table.rows.map (withReply messages), by
    rw [List.map_map, show MessageRef.id ∘ withReply messages = MessageRef.id from
      funext fun r => (withReply_keeps messages r).1]
    exact refs.table.unique⟩
  contentOnce := by
    rw [List.map_map, show place ∘ withReply messages = place from
      funext fun r => (withReply_keeps messages r).2.1]
    exact refs.contentOnce
  randomOnce := by
    rw [List.filterMap_map, show randomKey ∘ withReply messages = randomKey from
      funext fun r => (withReply_keeps messages r).2.2]
    exact refs.randomOnce

end Refs

def truth (values : List Bool) : Bool := !values.isEmpty

/-- The arguments of `forward_for_peers_bulk`. -/
structure ForwardForPeers where
  newContents : List MessageContent
  toPeer : Peer
  peers : List Peer
  randomIds : List (Option Int)
  randomUserId : Option Nat
  replyToContentIds : List (Option Nat)
  pinned : List Bool
  isDiscussion : List Bool

namespace ForwardForPeers

variable (args : ForwardForPeers)

def draft (content : MessageContent) (randomId : Option Int) (pinned : Bool) (peer : Peer) :
    MessageRef where
  id := 0
  peer := peer
  content := content
  pinned := pinned
  randomId := if peer.id == args.toPeer.id then randomId else none
  randomUserId := if peer.id == args.toPeer.id then args.randomUserId else none
  -- The whole sequence is stored, not the element of the message.
  isDiscussion := truth args.isDiscussion

/-- `zip(new_contents, random_ids, pinned)`. -/
def zipped : List (MessageContent × Option Int × Bool) :=
  args.newContents.zip (args.randomIds.zip args.pinned)

def messages : List MessageRef :=
  args.zipped.flatMap fun item => args.peers.map (args.draft item.1 item.2.1 item.2.2)

def refIdsByPeerIds (refs : Refs) : OrderedDict (Nat × Nat) Nat :=
  OrderedDict.ofPairs <|
    (refs.table.rows.filter fun r => (args.peers.map Peer.id).contains r.peer.id &&
      (args.newContents.map MessageContent.id).contains r.content.id).map fun r => (place r, r.id)

def repliesByContentId : OrderedDict Nat Nat :=
  OrderedDict.ofPairs <| (args.newContents.zip args.replyToContentIds).filterMap fun pair =>
    pair.2.map fun replyToContentId => (pair.1.id, replyToContentId)

def replyToRefId (ids : OrderedDict (Nat × Nat) Nat) (message : MessageRef) : Option Nat :=
  ((args.repliesByContentId.lookup message.content.id).bind fun contentId =>
    ids.lookup (message.peer.id, contentId)).filter fun id => id != 0

/-- Give a message the identifier under which it is stored, and its reply. -/
def readBack (ids : OrderedDict (Nat × Nat) Nat) (message : MessageRef) :
    Except Failure MessageRef :=
  (orRaise (ids.lookup (place message)) .other).map fun id =>
    { message with id := id, replyTo := args.replyToRefId ids message }

def forwardForPeersBulk (refs : Refs) : Except Failure (Refs × List MessageRef) :=
  if args.peers.isEmpty || args.newContents.isEmpty then .ok (refs, [])
  else do
    let refs ← refs.bulkCreate args.messages
    let messages ← args.messages.mapM (args.readBack (args.refIdsByPeerIds refs))
    .ok (refs.updateReplies (messages.filter fun m => m.replyTo.isSome), messages)

/-- The copies are new contents for distinct peers, and the random identifiers are distinct and not
used by the same user in the target peer. -/
structure Fresh (args : ForwardForPeers) (refs : Refs) : Prop where
  peersOnce : (args.peers.map Peer.id).Nodup
  contentsOnce : (args.newContents.map MessageContent.id).Nodup
  contentsNew : ∀ r ∈ refs.table, r.content.id ∉ args.newContents.map MessageContent.id
  randomIdsOnce : args.randomIds.Pairwise fun x y => x = y → x = none
  randomIdsNew : ∀ r ∈ refs.table, r.peer.id = args.toPeer.id → r.randomUserId = args.randomUserId →
    r.randomId.isSome = true → r.randomId ∉ args.randomIds
  randomIdsLength : args.randomIds.length = args.newContents.length
  pinnedLength : args.pinned.length = args.newContents.length

section Creating

variable {args : ForwardForPeers} {refs : Refs}

theorem zipped_contents (fresh : args.Fresh refs) :
    args.zipped.map Prod.fst = args.newContents := by
  have short := fresh.randomIdsLength
  have also := fresh.pinnedLength
  apply List.map_fst_zip
  rw [List.length_zip]
  omega

theorem zipped_randomIds (fresh : args.Fresh refs) :
    args.zipped.map (fun item => item.2.1) = args.randomIds := by
  have short := fresh.randomIdsLength
  have also := fresh.pinnedLength
  have seconds : args.zipped.map Prod.snd = args.randomIds.zip args.pinned := by
    apply List.map_snd_zip
    rw [List.length_zip]
    omega
  have firsts : (args.randomIds.zip args.pinned).map Prod.fst = args.randomIds := by
    apply List.map_fst_zip
    omega
  rw [← firsts, ← seconds, List.map_map]
  rfl

theorem messages_places (fresh : args.Fresh refs) : (args.messages.map place).Nodup := by
  rw [List.Nodup, List.pairwise_map, messages, List.pairwise_flatMap]
  constructor
  · intro item _
    rw [List.pairwise_map]
    have once := List.pairwise_map.mp fresh.peersOnce
    exact once.imp fun apart same => apart (Prod.mk.inj same).1
  · have once := fresh.contentsOnce
    rw [← zipped_contents fresh, List.map_map, List.Nodup, List.pairwise_map] at once
    refine once.imp fun apart m here n there same => ?_
    obtain ⟨p, -, rfl⟩ := List.mem_map.mp here
    obtain ⟨q, -, rfl⟩ := List.mem_map.mp there
    exact apart (Prod.mk.inj same).2

theorem randomKey_draft {content : MessageContent} {randomId : Option Int} {pinned : Bool}
    {peer : Peer} {key : Nat × Int × Nat}
    (keyed : randomKey (args.draft content randomId pinned peer) = some key) :
    peer.id = args.toPeer.id ∧ randomId = some key.2.1 ∧ args.randomUserId = some key.2.2 ∧
      key.1 = args.toPeer.id := by
  obtain ⟨here, known, told⟩ := randomKey_eq_some.mp keyed
  by_cases target : peer.id = args.toPeer.id
  · simp only [draft, target, beq_self_eq_true, if_true] at here known told
    exact ⟨target, known, told, here.symm⟩
  · simp [draft, target] at known

theorem messages_randomKeys (fresh : args.Fresh refs) :
    (args.messages.filterMap randomKey).Nodup := by
  rw [List.Nodup, List.pairwise_filterMap, messages, List.pairwise_flatMap]
  constructor
  · intro item _
    rw [List.pairwise_map]
    have once := List.pairwise_map.mp fresh.peersOnce
    refine once.imp fun apart key keyed other keyed' same => apart ?_
    rw [(randomKey_draft keyed).1, (randomKey_draft keyed').1]
  · have once := fresh.randomIdsOnce
    rw [← zipped_randomIds fresh, List.pairwise_map] at once
    refine once.imp fun apart m here n there key keyed other keyed' same => ?_
    obtain ⟨p, -, rfl⟩ := List.mem_map.mp here
    obtain ⟨q, -, rfl⟩ := List.mem_map.mp there
    have known := (randomKey_draft keyed).2.1
    have known' := (randomKey_draft keyed').2.1
    have absent := apart (by rw [known, known', same])
    rw [absent] at known
    cases known

/-- The rows that the database holds after the insertion. -/
def inserted (args : ForwardForPeers) (refs : Refs) : List MessageRef :=
  numbered refs.table.nextKey args.messages

theorem mem_messages {m : MessageRef} (listed : m ∈ args.messages) :
    ∃ item ∈ args.zipped, ∃ peer ∈ args.peers, m = args.draft item.1 item.2.1 item.2.2 peer := by
  obtain ⟨item, here, drafted⟩ := List.mem_flatMap.mp listed
  obtain ⟨peer, there, rfl⟩ := List.mem_map.mp drafted
  exact ⟨item, here, peer, there, rfl⟩

theorem bulkCreate_messages (fresh : args.Fresh refs) : ∃ after,
    refs.bulkCreate args.messages = .ok after ∧
      after.table.rows = refs.table.rows ++ args.inserted refs := by
  have places : ((refs.table.rows ++ args.inserted refs).map place).Nodup := by
    rw [List.map_append, inserted, map_numbered place fun _ _ => rfl, List.nodup_append]
    refine ⟨refs.contentOnce, messages_places fresh, ?_⟩
    intro a old b new same
    obtain ⟨r, here, rfl⟩ := List.mem_map.mp old
    obtain ⟨m, listed, rfl⟩ := List.mem_map.mp new
    obtain ⟨item, zipped, peer, -, rfl⟩ := mem_messages listed
    refine fresh.contentsNew r here ?_
    rw [show r.content.id = item.1.id from (Prod.mk.inj same).2, ← zipped_contents fresh]
    exact List.mem_map_of_mem (List.mem_map_of_mem zipped)
  have keys : ((refs.table.rows ++ args.inserted refs).filterMap randomKey).Nodup := by
    rw [List.filterMap_append, inserted, filterMap_numbered, List.nodup_append]
    refine ⟨refs.randomOnce, messages_randomKeys fresh, ?_⟩
    intro a old b new same
    obtain ⟨r, here, keyed⟩ := List.mem_filterMap.mp old
    obtain ⟨m, listed, keyed'⟩ := List.mem_filterMap.mp new
    obtain ⟨item, zipped, peer, -, rfl⟩ := mem_messages listed
    obtain ⟨-, known, told, target⟩ := randomKey_draft keyed'
    subst same
    obtain ⟨there, named, sent⟩ := randomKey_eq_some.mp keyed
    refine fresh.randomIdsNew r here (there.trans target) (sent.trans told.symm)
      (Option.isSome_iff_exists.mpr ⟨_, named⟩) ?_
    rw [named, ← known, ← zipped_randomIds fresh]
    exact List.mem_map_of_mem zipped
  exact Refs.bulkCreate_of_fits places keys

theorem inserted_id_pos {m : MessageRef} (listed : m ∈ args.inserted refs) : m.id ≠ 0 := by
  have above := le_of_mem_numbered listed
  have positive : 0 < refs.table.nextKey := Nat.succ_pos _
  omega

def replying (reply : MessageRef → Option Nat) (m : MessageRef) : MessageRef :=
  { m with replyTo := reply m }

def unsaved (m : MessageRef) : MessageRef := { m with id := 0 }

variable (args refs) in
theorem messages_eq : args.messages = (args.inserted refs).map unsaved := by
  rw [inserted, map_numbered unsaved fun _ _ => rfl]
  refine ((List.map_congr_left fun m listed => ?_).trans (List.map_id _)).symm
  obtain ⟨item, -, peer, -, rfl⟩ := mem_messages listed
  rfl

theorem mem_inserted {m : MessageRef} (listed : m ∈ args.inserted refs) :
    ∃ item ∈ args.zipped, ∃ peer ∈ args.peers,
      unsaved m = args.draft item.1 item.2.1 item.2.2 peer := by
  have drafted : unsaved m ∈ args.messages := by
    rw [messages_eq args refs]
    exact List.mem_map_of_mem listed
  exact mem_messages drafted

section Stored

variable {stored : Refs} (fresh : args.Fresh refs)
  (rows : stored.table.rows = refs.table.rows ++ args.inserted refs)

include fresh rows

theorem lookup_refIdsByPeerIds {key : Nat × Nat} {n : Nat} :
    (args.refIdsByPeerIds stored).lookup key = some n ↔
      ∃ m ∈ args.inserted refs, place m = key ∧ m.id = n := by
  have once : (((stored.table.rows.filter fun r =>
      (args.peers.map Peer.id).contains r.peer.id &&
        (args.newContents.map MessageContent.id).contains r.content.id).map
      fun r => (place r, r.id)).map Prod.fst).Nodup := by
    rw [List.map_map]
    exact stored.contentOnce.sublist (List.filter_sublist.map place)
  rw [refIdsByPeerIds, OrderedDict.lookup_ofPairs_iff once, List.mem_map]
  constructor
  · rintro ⟨r, chosen, same⟩
    obtain ⟨here, passes⟩ := List.mem_filter.mp chosen
    obtain ⟨named, numbered⟩ := Prod.mk.inj same
    rw [rows, List.mem_append] at here
    rcases here with old | new
    · simp only [Bool.and_eq_true, List.contains_iff_mem] at passes
      exact absurd passes.2 (fresh.contentsNew r old)
    · exact ⟨r, new, named, numbered⟩
  · rintro ⟨m, new, named, numbered⟩
    obtain ⟨item, zipped, peer, there, same⟩ := mem_inserted new
    refine ⟨m, List.mem_filter.mpr ⟨?_, ?_⟩, Prod.ext named numbered⟩
    · rw [rows]
      exact List.mem_append_right _ new
    · simp only [Bool.and_eq_true, List.contains_iff_mem]
      constructor
      · rw [show m.peer = peer from congrArg MessageRef.peer same]
        exact List.mem_map_of_mem there
      · rw [show m.content = item.1 from congrArg MessageRef.content same,
          ← zipped_contents fresh]
        exact List.mem_map_of_mem (List.mem_map_of_mem zipped)

theorem readBack_messages :
    args.messages.mapM (args.readBack (args.refIdsByPeerIds stored)) =
      .ok ((args.inserted refs).map
        (replying (args.replyToRefId (args.refIdsByPeerIds stored)))) := by
  rw [messages_eq args refs, List.mapM_map]
  refine mapM_eq_ok_map fun m new => ?_
  have found : (args.refIdsByPeerIds stored).lookup (place m) = some m.id :=
    (lookup_refIdsByPeerIds fresh rows).mpr ⟨m, new, rfl, rfl⟩
  show (orRaise ((args.refIdsByPeerIds stored).lookup (place m)) .other).map _ = _
  rw [found]
  rfl

theorem replyToRefId_iff {m : MessageRef} {n : Nat} :
    args.replyToRefId (args.refIdsByPeerIds stored) m = some n ↔
      ∃ contentId, args.repliesByContentId.lookup m.content.id = some contentId ∧
        ∃ t ∈ args.inserted refs, place t = (m.peer.id, contentId) ∧ t.id = n := by
  rw [replyToRefId, Option.filter_eq_some_iff, Option.bind_eq_some_iff]
  constructor
  · rintro ⟨⟨contentId, told, found⟩, -⟩
    exact ⟨contentId, told, (lookup_refIdsByPeerIds fresh rows).mp found⟩
  · rintro ⟨contentId, told, t, new, named, rfl⟩
    refine ⟨⟨contentId, told, ?_⟩, ?_⟩
    · exact (lookup_refIdsByPeerIds fresh rows).mpr ⟨t, new, named, rfl⟩
    · simpa using inserted_id_pos new

end Stored

theorem eq_of_id_inserted {m n : MessageRef} (here : m ∈ args.inserted refs)
    (there : n ∈ args.inserted refs) (same : m.id = n.id) : m = n := by
  have once : ((args.inserted refs).map MessageRef.id).Nodup := by
    rw [inserted, ids_numbered]
    exact List.nodup_range'
  exact List.inj_on_of_nodup_map once here there same

theorem rows_updateReplies {stored : Refs}
    (rows : stored.table.rows = refs.table.rows ++ args.inserted refs)
    (reply : MessageRef → Option Nat) :
    (stored.updateReplies (((args.inserted refs).map (replying reply)).filter fun m =>
      m.replyTo.isSome)).table.rows = refs.table.rows ++ (args.inserted refs).map (replying reply) := by
  show stored.table.rows.map (Refs.withReply _) = _
  rw [rows, List.map_append]
  congr 1
  · refine (List.map_congr_left fun r old => ?_).trans (List.map_id _)
    refine Refs.withReply_of_absent fun m updated same => ?_
    obtain ⟨n, new, rfl⟩ := List.mem_map.mp (List.mem_filter.mp updated).1
    have below := refs.table.lt_nextKey old
    have above := le_of_mem_numbered new
    simp only [replying] at same
    omega
  · refine List.map_congr_left fun m new => ?_
    have only : ∀ n ∈ ((args.inserted refs).map (replying reply)).filter
        (fun m => m.replyTo.isSome), n.id = m.id → n = replying reply m := by
      intro n updated same
      obtain ⟨k, here, rfl⟩ := List.mem_map.mp (List.mem_filter.mp updated).1
      rw [eq_of_id_inserted here new same]
    cases replies : reply m with
    | some n =>
      have updated : replying reply m ∈ ((args.inserted refs).map (replying reply)).filter
          fun m => m.replyTo.isSome := by
        refine List.mem_filter.mpr ⟨List.mem_map_of_mem new, ?_⟩
        simp [replying, replies]
      exact Refs.withReply_of_mem updated rfl only
    | none =>
      obtain ⟨item, -, peer, -, same⟩ := mem_inserted new
      have unset : m.replyTo = none := congrArg MessageRef.replyTo same
      have plain : replying reply m = m := by
        rw [replying, replies, ← unset]
      rw [plain]
      refine Refs.withReply_of_absent fun n updated same => ?_
      have known := (List.mem_filter.mp updated).2
      rw [only n updated same, plain, unset] at known
      cases known

/-- What `forward_for_peers_bulk` creates. -/
structure Created (args : ForwardForPeers) (created : List MessageRef) : Prop where
  places : created.map place = args.messages.map place
  sorted : created.Pairwise fun m n => m.id < n.id
  drafted : ∀ m ∈ created, ∃ item ∈ args.zipped, ∃ peer ∈ args.peers,
    { m with id := 0, replyTo := none } = args.draft item.1 item.2.1 item.2.2 peer
  replies : ∀ m ∈ created, ∀ n, m.replyTo = some n ↔
    ∃ contentId, args.repliesByContentId.lookup m.content.id = some contentId ∧
      ∃ t ∈ created, place t = (m.peer.id, contentId) ∧ t.id = n

theorem created_nil (nothing : args.messages = []) : Created args [] where
  places := by rw [nothing]
  sorted := .nil
  drafted := fun m absent => by cases absent
  replies := fun m absent => by cases absent

theorem created_inserted {reply : MessageRef → Option Nat}
    (replies : ∀ m n, reply m = some n ↔
      ∃ contentId, args.repliesByContentId.lookup m.content.id = some contentId ∧
        ∃ t ∈ args.inserted refs, place t = (m.peer.id, contentId) ∧ t.id = n) :
    Created args ((args.inserted refs).map (replying reply)) where
  places := by
    rw [List.map_map]
    exact map_numbered place fun _ _ => rfl
  sorted := List.pairwise_map.mpr pairwise_numbered
  drafted := by
    intro m listed
    obtain ⟨n, new, rfl⟩ := List.mem_map.mp listed
    obtain ⟨item, zipped, peer, there, same⟩ := mem_inserted new
    have unset : n.replyTo = none := congrArg MessageRef.replyTo same
    refine ⟨item, zipped, peer, there, ?_⟩
    rw [← same, unsaved, replying, unset]
  replies := by
    intro m listed n
    obtain ⟨k, new, rfl⟩ := List.mem_map.mp listed
    rw [show (replying reply k).replyTo = reply k from rfl, replies]
    constructor
    · rintro ⟨contentId, told, t, there, named, rfl⟩
      exact ⟨contentId, told, _, List.mem_map_of_mem there, named, rfl⟩
    · rintro ⟨contentId, told, t, there, named, rfl⟩
      obtain ⟨u, here, rfl⟩ := List.mem_map.mp there
      exact ⟨contentId, told, u, here, named, rfl⟩

theorem forwardForPeersBulk_spec (fresh : args.Fresh refs) : ∃ after created,
    args.forwardForPeersBulk refs = .ok (after, created) ∧
      after.table.rows = refs.table.rows ++ created ∧ Created args created := by
  unfold forwardForPeersBulk
  split
  · rename_i nothing
    have unsent : args.messages = [] := by
      rw [Bool.or_eq_true, List.isEmpty_iff, List.isEmpty_iff] at nothing
      rcases nothing with none | none
      · simp [messages, none]
      · simp [messages, zipped, none]
    exact ⟨refs, [], rfl, (List.append_nil _).symm, created_nil unsent⟩
  · obtain ⟨stored, created, rows⟩ := bulkCreate_messages fresh
    rw [created]
    show ∃ after made, (args.messages.mapM (args.readBack (args.refIdsByPeerIds stored)) >>=
      fun messages => _) = _ ∧ _
    rw [readBack_messages fresh rows]
    exact ⟨_, _, rfl, rows_updateReplies rows _,
      created_inserted fun m n => replyToRefId_iff fresh rows⟩

section Reading

variable {created : List MessageRef}

theorem fields_created (made : Created args created) {m : MessageRef} (listed : m ∈ created) :
    ∃ item ∈ args.zipped, m.content = item.1 ∧ m.peer ∈ args.peers ∧ m.pinned = item.2.2 ∧
      m.isDiscussion = truth args.isDiscussion ∧
      (m.peer.id = args.toPeer.id → m.randomId = item.2.1 ∧ m.randomUserId = args.randomUserId) ∧
      (m.peer.id ≠ args.toPeer.id → m.randomId = none) := by
  obtain ⟨item, zipped, peer, there, same⟩ := made.drafted m listed
  have here : m.peer = peer := congrArg MessageRef.peer same
  have known : m.randomId = if peer.id == args.toPeer.id then item.2.1 else none :=
    congrArg MessageRef.randomId same
  have told : m.randomUserId = if peer.id == args.toPeer.id then args.randomUserId else none :=
    congrArg MessageRef.randomUserId same
  refine ⟨item, zipped, congrArg MessageRef.content same, here ▸ there,
    congrArg MessageRef.pinned same, congrArg MessageRef.isDiscussion same, ?_, ?_⟩
  · intro target
    rw [here] at target
    rw [known, told, if_pos (beq_iff_eq.mpr target), if_pos (beq_iff_eq.mpr target)]
    exact ⟨rfl, rfl⟩
  · intro other
    rw [here] at other
    rw [known, if_neg fun target => other (beq_iff_eq.mp target)]

theorem eq_of_place_created (fresh : args.Fresh refs) (made : Created args created)
    {m n : MessageRef} (here : m ∈ created) (there : n ∈ created) (same : place m = place n) :
    m = n := by
  have once := messages_places fresh
  rw [← made.places] at once
  exact List.inj_on_of_nodup_map once here there same

theorem eq_of_id_created (made : Created args created) {m n : MessageRef} (here : m ∈ created)
    (there : n ∈ created) (same : m.id = n.id) : m = n := by
  have once : (created.map MessageRef.id).Nodup := by
    rw [List.Nodup, List.pairwise_map]
    exact made.sorted.imp Nat.ne_of_lt
  exact List.inj_on_of_nodup_map once here there same

theorem eq_of_id_newContents (fresh : args.Fresh refs) {c d : MessageContent}
    (here : c ∈ args.newContents) (there : d ∈ args.newContents) (same : c.id = d.id) : c = d :=
  List.inj_on_of_nodup_map fresh.contentsOnce here there same

theorem mem_newContents (fresh : args.Fresh refs) {item : MessageContent × Option Int × Bool}
    (zipped : item ∈ args.zipped) : item.1 ∈ args.newContents := by
  rw [← zipped_contents fresh]
  exact List.mem_map_of_mem zipped

theorem exists_created (fresh : args.Fresh refs) (made : Created args created)
    {content : MessageContent} {peer : Peer} (copy : content ∈ args.newContents)
    (recipient : peer ∈ args.peers) :
    ∃ m ∈ created, m.content = content ∧ m.peer = peer := by
  have listed := copy
  rw [← zipped_contents fresh] at listed
  obtain ⟨item, zipped, rfl⟩ := List.mem_map.mp listed
  have drafted : args.draft item.1 item.2.1 item.2.2 peer ∈ args.messages :=
    List.mem_flatMap.mpr ⟨item, zipped, List.mem_map_of_mem recipient⟩
  have placed := List.mem_map_of_mem (f := place) drafted
  rw [← made.places] at placed
  obtain ⟨m, here, same⟩ := List.mem_map.mp placed
  obtain ⟨other, zipped', has, there, -⟩ := fields_created made here
  refine ⟨m, here, ?_, ?_⟩
  · refine eq_of_id_newContents fresh (has ▸ mem_newContents fresh zipped') copy ?_
    exact (Prod.mk.inj same).2
  · exact List.inj_on_of_nodup_map fresh.peersOnce there recipient (Prod.mk.inj same).1

end Reading

end Creating

end ForwardForPeers

end Piltover.Forwarding
