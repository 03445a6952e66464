/- source: piltover/app/handlers/messages/sending.py
   digest: A forward and its retries give each random identifier one copy, and which requests break that. -/

import Piltover.Forwarding.ForwardMessages
import Piltover.Foundation.Paging

set_option autoImplicit false

namespace Piltover.Forwarding

open Piltover.Contents
open Piltover.Foundation

/-- The contents of the references have been numbered, and messages reply within their peer. -/
structure Db.Sound (db : Db) : Prop where
  contents : ∀ ref ∈ db.refs.table, ref.content.id < db.nextContentId
  replies : RepliesWithin db.refs

def Source (ctx : Context) (db : Db) (r : ForwardMessages) (i : Nat) (m : MessageRef) : Prop :=
  m ∈ db.refs.table ∧ m.id = i ∧ r.isSource ctx m = true

def Sends (ctx : Context) (db : Db) (r : ForwardMessages) (x : Int) (m : MessageRef) : Prop :=
  ∃ k i : Nat, r.id[k]? = some i ∧ r.randomId[k]? = some x ∧ Source ctx db r i m

/-- The reference was sent to the target peer by the user with the random identifier. -/
def SentAs (ctx : Context) (r : ForwardMessages) (x : Int) (ref : MessageRef) : Prop :=
  r.sentAs ctx.user.id x ref = true

/-- Nothing was sent with the random identifier yet. -/
def Unsent (ctx : Context) (db : Db) (r : ForwardMessages) (x : Int) : Prop :=
  ∀ old ∈ db.refs.table, ¬ SentAs ctx r x old

/-- The references with random identifiers of the request come from earlier executions of it: each
is a copy of the message that the request sends under the random identifier. -/
def Earlier (ctx : Context) (db : Db) (r : ForwardMessages) : Prop :=
  ∀ ref ∈ db.refs.table, ∀ x ∈ r.randomId, SentAs ctx r x ref →
    ∃ i, r.randomIds.lookup i = some x ∧
      ∀ m ∈ db.refs.table, m.id = i → IsCopy r.dropMediaCaptions m.content ref.content

/-- Every message of the request that exists has been sent once under its random identifier, and
nothing else was added. -/
structure Complete (ctx : Context) (db after : Db) (r : ForwardMessages) : Prop where
  once : ∀ x m, Sends ctx db r x m → ∃! ref, ref ∈ after.refs.table ∧ SentAs ctx r x ref
  copies : ∀ x m, Sends ctx db r x m → ∀ ref ∈ after.refs.table, SentAs ctx r x ref →
    IsCopy r.dropMediaCaptions m.content ref.content
  kept : ∀ ref ∈ db.refs.table, ref ∈ after.refs.table
  added : ∀ ref ∈ after.refs.table, ref ∉ db.refs.table → ∃ x m,
    Sends ctx db r x m ∧ Unsent ctx db r x ∧
      IsCopy r.dropMediaCaptions m.content ref.content ∧
      (ref.peer.id = r.toPeer.id → SentAs ctx r x ref)

/-- Some message is still to be copied, none is named twice or after the first 100, and each one
that is still to be copied says where it comes from, unless the author is dropped. -/
structure Fits (ctx : Context) (db : Db) (r : ForwardMessages) : Prop where
  left : ∃ x m, Sends ctx db r x m ∧ Unsent ctx db r x
  once : ∀ j k i : Nat, j < k → r.id[j]? = some i → r.id[k]? = some i →
    ∀ m, ¬ Source ctx db r i m
  within : ∀ k i : Nat, 100 ≤ k → r.id[k]? = some i → ∀ m, ¬ Source ctx db r i m
  credited : r.dropAuthor = true ∨ ∀ x m, Sends ctx db r x m → Unsent ctx db r x →
    Credited r.toPeer.isSelf m

section Identifiers

variable {r : ForwardMessages}

theorem mem_take_zip {α β : Type} {n : Nat} {l : List α} {m : List β} {a : α} {b : β} :
    (a, b) ∈ (l.take n).zip (m.take n) ↔ ∃ k < n, l[k]? = some a ∧ m[k]? = some b := by
  rw [List.mem_iff_getElem?]
  constructor
  · rintro ⟨k, found⟩
    obtain ⟨left, right⟩ := List.getElem?_zip_eq_some.mp found
    rw [List.getElem?_take] at left right
    split at left
    · rename_i less
      rw [if_pos less] at right
      exact ⟨k, less, left, right⟩
    · cases left
  · rintro ⟨k, less, left, right⟩
    refine ⟨k, List.getElem?_zip_eq_some.mpr ⟨?_, ?_⟩⟩
    · rw [List.getElem?_take, if_pos less, left]
    · rw [List.getElem?_take, if_pos less, right]

theorem position_of_lookup {i : Nat} {x : Int} (found : r.randomIds.lookup i = some x) :
    ∃ k < 100, r.id[k]? = some i ∧ r.randomId[k]? = some x :=
  mem_take_zip.mp (OrderedDict.mem_of_lookup_ofPairs found)

theorem eq_of_getElem? {l : List Int} (distinct : l.Nodup) {j k : Nat} {x : Int}
    (here : l[j]? = some x) (there : l[k]? = some x) : j = k := by
  obtain ⟨less, rfl⟩ := List.getElem?_eq_some_iff.mp here
  obtain ⟨less', same⟩ := List.getElem?_eq_some_iff.mp there
  exact (distinct.getElem_inj_iff.mp same).symm

theorem eq_of_lookup (distinct : r.randomId.Nodup) {i j : Nat} {x : Int}
    (here : r.randomIds.lookup i = some x) (there : r.randomIds.lookup j = some x) : i = j := by
  obtain ⟨k, -, named, sent⟩ := position_of_lookup here
  obtain ⟨l, -, named', sent'⟩ := position_of_lookup there
  obtain rfl := eq_of_getElem? distinct sent sent'
  exact Option.some.inj (named.symm.trans named')

/-- A message that is named at one position only, among the first 100, goes under the random
identifier of that position. -/
theorem lookup_of_position {k i : Nat} {x : Int} (less : k < 100) (named : r.id[k]? = some i)
    (sent : r.randomId[k]? = some x) (only : ∀ l < 100, r.id[l]? = some i → l = k) :
    r.randomIds.lookup i = some x := by
  obtain ⟨y, found⟩ := OrderedDict.exists_lookup_ofPairs
    (mem_take_zip.mpr ⟨k, less, named, sent⟩)
  obtain ⟨l, less', named', sent'⟩ := position_of_lookup found
  obtain rfl := only l less' named'
  rw [show r.randomIds.lookup i = some y from found, ← sent', sent]

theorem lookup_idByRandomId (distinct : r.randomId.Nodup) {i : Nat} {x : Int}
    (found : r.randomIds.lookup i = some x) : r.idByRandomId.lookup x = some i := by
  obtain ⟨k, less, named, sent⟩ := position_of_lookup found
  obtain ⟨j, found'⟩ := OrderedDict.exists_lookup_ofPairs (mem_take_zip.mpr ⟨k, less, sent, named⟩)
  obtain ⟨l, -, sent', named'⟩ := mem_take_zip.mp (OrderedDict.mem_of_lookup_ofPairs found')
  obtain rfl := eq_of_getElem? distinct sent sent'
  rw [ForwardMessages.idByRandomId, found', ← named', named]

theorem subtract_spec {existing : List MessageRef} {randomIds : OrderedDict Nat Int}
    {idByRandomId : OrderedDict Int Nat}
    (apart : existing.Pairwise fun m n => m.randomId ≠ n.randomId)
    (known : ∀ ref ∈ existing, ∃ x i, ref.randomId = some x ∧ idByRandomId.lookup x = some i ∧
      randomIds.lookup i = some x)
    (distinct : ∀ i j x, randomIds.lookup i = some x → randomIds.lookup j = some x → i = j) :
    ∃ left, ForwardMessages.subtract randomIds idByRandomId existing = .ok left ∧
      ∀ i x, left.lookup i = some x ↔
        randomIds.lookup i = some x ∧ ∀ ref ∈ existing, ref.randomId ≠ some x := by
  induction existing generalizing randomIds idByRandomId with
  | nil => exact ⟨randomIds, rfl, fun i x => by simp⟩
  | cons first rest ih =>
    obtain ⟨x, i, named, found, back⟩ := known first List.mem_cons_self
    obtain ⟨others, apart⟩ := List.pairwise_cons.mp apart
    have stay : ∀ ref ∈ rest, ∃ y j, ref.randomId = some y ∧
        (AList.erase x idByRandomId).lookup y = some j ∧
        (AList.erase i randomIds).lookup j = some y := by
      intro ref later
      obtain ⟨y, j, named', found', back'⟩ := known ref (List.mem_cons_of_mem first later)
      have differ : y ≠ x := fun same => others ref later (by rw [named, named', same])
      refine ⟨y, j, named', OrderedDict.lookup_erase_eq_some.mpr ⟨differ, found'⟩,
        OrderedDict.lookup_erase_eq_some.mpr ⟨?_, back'⟩⟩
      rintro rfl
      exact differ (Option.some.inj (back'.symm.trans back))
    have injective : ∀ j k y, (AList.erase i randomIds).lookup j = some y →
        (AList.erase i randomIds).lookup k = some y → j = k := fun j k y here there =>
      distinct j k y (OrderedDict.lookup_erase_eq_some.mp here).2
        (OrderedDict.lookup_erase_eq_some.mp there).2
    obtain ⟨left, rest_ok, spec⟩ := ih apart stay injective
    refine ⟨left, ?_, fun j y => ?_⟩
    · rw [ForwardMessages.subtract, named, present, orRaise]
      show (present (idByRandomId.lookup x) >>= _) = _
      rw [found, present, orRaise]
      show (present (randomIds.lookup i) >>= _) = _
      rw [back, present, orRaise]
      exact rest_ok
    · rw [spec, OrderedDict.lookup_erase_eq_some, List.forall_mem_cons, named]
      constructor
      · rintro ⟨⟨differ, there⟩, free⟩
        refine ⟨there, ?_, free⟩
        intro same
        rw [← Option.some.inj same] at there
        exact differ (distinct j i x there back)
      · rintro ⟨there, differ, free⟩
        refine ⟨⟨?_, there⟩, free⟩
        rintro rfl
        exact differ (back.symm.trans there)

end Identifiers

section Checks

variable {ctx : Context} {db : Db} {r : ForwardMessages}

theorem sentAs_iff {x : Int} {ref : MessageRef} : SentAs ctx r x ref ↔
    ref.peer.id = r.toPeer.id ∧ ref.randomUserId = some ctx.user.id ∧ ref.randomId = some x := by
  rw [SentAs, ForwardMessages.sentAs, Bool.and_eq_true, Bool.and_eq_true, beq_iff_eq, beq_iff_eq,
    beq_iff_eq, and_assoc]

theorem eq_of_sentAs {refs : Refs} {x : Int} {ref other : MessageRef} (here : ref ∈ refs.table)
    (there : other ∈ refs.table) (sent : SentAs ctx r x ref) (sent' : SentAs ctx r x other) :
    ref = other := by
  have once := refs.randomOnce
  rw [List.Nodup, List.pairwise_filterMap] at once
  by_contra differ
  have symmetric : Std.Symm fun m n : MessageRef =>
      ∀ key, randomKey m = some key → ∀ key', randomKey n = some key' → key ≠ key' :=
    ⟨fun m n apart key keyed key' keyed' => (apart key' keyed' key keyed).symm⟩
  obtain ⟨peer, user, known⟩ := sentAs_iff.mp sent
  obtain ⟨peer', user', known'⟩ := sentAs_iff.mp sent'
  exact once.forall here there differ (r.toPeer.id, x, ctx.user.id)
    (randomKey_eq_some.mpr ⟨peer, known, user⟩) (r.toPeer.id, x, ctx.user.id)
    (randomKey_eq_some.mpr ⟨peer', known', user'⟩) rfl

theorem mem_existing {ref : MessageRef} : ref ∈ r.existingByRandomId db ctx.user.id ↔
    ref ∈ db.refs.table ∧ ∃ x ∈ r.randomId.take 100, SentAs ctx r x ref := by
  rw [ForwardMessages.existingByRandomId, List.mem_filter, List.any_eq_true]
  exact Iff.rfl

theorem subtract_existing (distinct : r.randomId.Nodup) (earlier : Earlier ctx db r) :
    ∃ left, ForwardMessages.subtract r.randomIds r.idByRandomId
        (r.existingByRandomId db ctx.user.id) = .ok left ∧
      ∀ i x, left.lookup i = some x ↔ r.randomIds.lookup i = some x ∧ Unsent ctx db r x := by
  have apart : (r.existingByRandomId db ctx.user.id).Pairwise fun m n =>
      m.randomId ≠ n.randomId := by
    have rows : (r.existingByRandomId db ctx.user.id).Nodup :=
      (List.Nodup.of_map _ db.refs.table.unique).filter _
    refine rows.imp_of_mem fun {m n} here there differ same => differ ?_
    obtain ⟨stored, x, -, sent⟩ := mem_existing.mp here
    obtain ⟨stored', y, -, sent'⟩ := mem_existing.mp there
    have equal : x = y := by
      have known := (sentAs_iff.mp sent).2.2
      rw [same, (sentAs_iff.mp sent').2.2] at known
      exact (Option.some.inj known).symm
    exact eq_of_sentAs stored stored' sent (equal ▸ sent')
  have known : ∀ ref ∈ r.existingByRandomId db ctx.user.id, ∃ x i, ref.randomId = some x ∧
      r.idByRandomId.lookup x = some i ∧ r.randomIds.lookup i = some x := by
    intro ref listed
    obtain ⟨stored, x, named, sent⟩ := mem_existing.mp listed
    obtain ⟨i, found, -⟩ := earlier ref stored x (List.mem_of_mem_take named) sent
    exact ⟨x, i, (sentAs_iff.mp sent).2.2, lookup_idByRandomId distinct found, found⟩
  obtain ⟨left, taken, spec⟩ := subtract_spec apart known fun i j x => eq_of_lookup distinct
  refine ⟨left, taken, fun i x => ?_⟩
  rw [spec]
  refine and_congr_right fun found => ?_
  obtain ⟨k, less, -, listed⟩ := position_of_lookup found
  have early : x ∈ r.randomId.take 100 := by
    refine List.mem_iff_getElem?.mpr ⟨k, ?_⟩
    rw [List.getElem?_take, if_pos less, listed]
  constructor
  · intro free old stored sent
    exact free old (mem_existing.mpr ⟨stored, x, early, sent⟩) (sentAs_iff.mp sent).2.2
  · intro unsent ref existing named
    obtain ⟨stored, y, -, sent⟩ := mem_existing.mp existing
    have known := (sentAs_iff.mp sent).2.2
    rw [named] at known
    exact unsent ref stored (Option.some.inj known ▸ sent)

theorem mem_sourceMessages {left : OrderedDict Nat Int} {m : MessageRef} :
    m ∈ r.sourceMessages ctx db left ↔
      Source ctx db r m.id m ∧ ∃ x, left.lookup m.id = some x := by
  rw [ForwardMessages.sourceMessages, List.mem_insertionSort, List.mem_filter, Bool.and_eq_true,
    decide_eq_true_iff, Source]
  have key : m.id ∈ left.keys ↔ ∃ x, left.lookup m.id = some x := by
    rw [← AList.mem_keys, ← AList.lookup_isSome, Option.isSome_iff_exists]
  rw [key]
  constructor
  · rintro ⟨here, source, kept⟩
    exact ⟨⟨here, rfl, source⟩, kept⟩
  · rintro ⟨⟨here, -, source⟩, kept⟩
    exact ⟨here, source, kept⟩

end Checks

section Recipients

variable {db : Db} {peer : Peer}

theorem getOrCreateForUser_frame {ownerId userId : Nat} {apart : ownerId ≠ userId} :
    (db.getOrCreateForUser ownerId userId apart).1.refs = db.refs ∧
      (db.getOrCreateForUser ownerId userId apart).1.nextContentId = db.nextContentId := by
  unfold Db.getOrCreateForUser
  split <;> exact ⟨rfl, rfl⟩

variable (db) in
theorem getOrCreateForUser_spec {ownerId userId : Nat} (apart : ownerId ≠ userId) :
    (db.getOrCreateForUser ownerId userId apart).2.ownerId = some ownerId ∧
      ((db.getOrCreateForUser ownerId userId apart).2 ∈ db.peers ∨
        (db.getOrCreateForUser ownerId userId apart).2.id = db.peers.nextKey) := by
  unfold Db.getOrCreateForUser
  split
  · rename_i p found
    have chosen := List.find?_some found
    rw [Bool.and_eq_true, beq_iff_eq] at chosen
    exact ⟨chosen.1, .inl (List.mem_of_find?_eq_some found)⟩
  · exact ⟨rfl, .inr rfl⟩

theorem getOpposite_frame : (db.getOpposite peer).1.refs = db.refs ∧
    (db.getOpposite peer).1.nextContentId = db.nextContentId := by
  unfold Db.getOpposite
  split
  · split
    · exact ⟨rfl, rfl⟩
    · exact getOrCreateForUser_frame
  · exact ⟨rfl, rfl⟩
  · exact ⟨rfl, rfl⟩

theorem ne_getOrCreateForUser {ownerId userId : Nat} {apart : ownerId ≠ userId}
    (stored : peer ∈ db.peers) (owned : peer.ownerId = some userId) :
    peer.id ≠ (db.getOrCreateForUser ownerId userId apart).2.id := by
  obtain ⟨owner, origin⟩ := getOrCreateForUser_spec db apart
  intro same
  rcases origin with old | new
  · rw [← Table.eq_of_key_eq stored old same, owned] at owner
    exact apart (Option.some.inj owner).symm
  · have below := db.peers.lt_nextKey stored
    omega

theorem recipients_once (stored : peer ∈ db.peers) :
    ((peer :: (db.getOpposite peer).2).map Peer.id).Nodup := by
  unfold Db.getOpposite
  split
  · rename_i userId ownerId typed owned
    split
    · exact List.nodup_singleton _
    · dsimp only
      split
      · exact List.nodup_singleton _
      · rw [List.map_cons, List.map_singleton, List.nodup_cons]
        refine ⟨fun listed => ?_, List.nodup_singleton _⟩
        exact ne_getOrCreateForUser stored owned (List.mem_singleton.mp listed)
  · rename_i chat typed
    rw [List.map_cons, List.nodup_cons]
    refine ⟨fun listed => ?_, db.peers.nodup_filter _⟩
    obtain ⟨other, chosen, same⟩ := List.mem_map.mp listed
    obtain ⟨there, differ⟩ := List.mem_filter.mp chosen
    rw [← Table.eq_of_key_eq stored there same.symm] at differ
    simp at differ
  · exact List.nodup_singleton _

end Recipients

section Copying

variable {ctx : Context} {db : Db} {r : ForwardMessages} {left : OrderedDict Nat Int}
  {messages : List MessageRef} {copies : List MessageContent}

theorem unrefused_fwdHeaders : Unrefused (r.fwdHeaders ctx messages) := by
  unfold ForwardMessages.fwdHeaders
  split
  · exact unrefused_ok _
  · exact unrefused_map unrefused_createFwdHeaderBulk

theorem fwdHeaders_length {headers : List (Option MessageFwdHeader)}
    (made : r.fwdHeaders ctx messages = .ok headers) : headers.length = messages.length := by
  unfold ForwardMessages.fwdHeaders at made
  split at made
  · cases made
    exact List.length_replicate
  · obtain ⟨plain, bulk, rfl⟩ := map_eq_ok.mp made
    rw [List.length_map, createFwdHeaderBulk_length bulk]

theorem exists_fwdHeaders : (∃ headers, r.fwdHeaders ctx messages = .ok headers) ↔
    r.dropAuthor = true ∨ ∀ m ∈ messages, Credited r.toPeer.isSelf m := by
  unfold ForwardMessages.fwdHeaders
  cases r.dropAuthor with
  | true => exact ⟨fun _ => .inl rfl, fun _ => ⟨_, rfl⟩⟩
  | false =>
    simp only [Bool.false_eq_true, if_false, false_or, map_eq_ok]
    rw [← exists_createFwdHeaderBulk ctx.privacyRules]
    constructor
    · rintro ⟨_, headers, made, -⟩
      exact ⟨headers, made⟩
    · rintro ⟨headers, made⟩
      exact ⟨_, headers, made, rfl⟩

theorem postInfos_length {first : Nat} {peer : Peer} {user : User}
    {participant : Option ChatParticipant} {count : Nat} :
    (makeChannelPostInfoMany first peer user participant count).2.1.length = count := by
  unfold makeChannelPostInfoMany
  split
  · exact List.length_replicate
  · rw [List.length_map, List.length_range']

theorem batch_sourceMessages (alike : List.Forall₂ (IsCopy r.dropMediaCaptions)
      ((r.sourceMessages ctx db left).map MessageRef.content) copies)
    (ids : copies.map MessageContent.id =
      List.range' db.nextContentId (r.sourceMessages ctx db left).length) :
    Batch db.refs (r.sourceMessages ctx db left) copies where
  ordered := by
    apply Paging.strictly_sorted
    exact db.refs.table.nodup_filter _
  stored := fun m listed => (mem_sourceMessages.mp listed).1.1
  onePeer := by
    intro m here n there
    have from_peer : ∀ m ∈ r.sourceMessages ctx db left, m.peer.id = r.fromPeer.id := by
      intro m listed
      have source := (mem_sourceMessages.mp listed).1.2.2
      rw [ForwardMessages.isSource, Bool.and_eq_true, Bool.and_eq_true, beq_iff_eq] at source
      exact source.1.1
    rw [from_peer m here, from_peer n there]
  copiesOrdered := by
    have sorted := List.pairwise_lt_range' (s := db.nextContentId)
      (n := (r.sourceMessages ctx db left).length)
    rwa [← ids, List.pairwise_map] at sorted
  sameLength := by
    have same := alike.length_eq
    rw [List.length_map] at same
    exact same.symm

theorem fresh_forwardArgs (sound : db.Sound) (resolved : r.toPeer ∈ db.peers)
    (distinct : r.randomId.Nodup)
    (spec : ∀ i x, left.lookup i = some x ↔ r.randomIds.lookup i = some x ∧ Unsent ctx db r x)
    (batch : Batch db.refs (r.sourceMessages ctx db left) copies)
    (ids : copies.map MessageContent.id =
      List.range' db.nextContentId (r.sourceMessages ctx db left).length) :
    (forwardArgs db.refs (r.sourceMessages ctx db left) copies r.toPeer
      (r.toPeer :: (db.getOpposite r.toPeer).2)
      ((r.sourceMessages ctx db left).map fun ref => left.lookup ref.id) ctx.user.id).Fresh
        db.refs where
  peersOnce := recipients_once resolved
  contentsOnce := by
    show (copies.map MessageContent.id).Nodup
    rw [ids]
    exact List.nodup_range'
  contentsNew := by
    intro ref stored listed
    have below := sound.contents ref stored
    rw [show (forwardArgs db.refs (r.sourceMessages ctx db left) copies r.toPeer
      (r.toPeer :: (db.getOpposite r.toPeer).2)
      ((r.sourceMessages ctx db left).map fun ref => left.lookup ref.id)
      ctx.user.id).newContents = copies from rfl, ids, List.mem_range'_1] at listed
    omega
  randomIdsOnce := by
    show ((r.sourceMessages ctx db left).map fun ref => left.lookup ref.id).Pairwise _
    rw [List.pairwise_map]
    refine batch.ordered.imp fun {m n} less same => ?_
    cases known : left.lookup m.id with
    | none => rfl
    | some x =>
      rw [known] at same
      have equal := eq_of_lookup distinct ((spec m.id x).mp known).1
        ((spec n.id x).mp same.symm).1
      omega
  randomIdsNew := by
    intro ref stored target sent named listed
    obtain ⟨x, known⟩ := Option.isSome_iff_exists.mp named
    obtain ⟨m, -, found⟩ := List.mem_map.mp listed
    rw [known] at found
    exact ((spec m.id x).mp found).2 ref stored (sentAs_iff.mpr ⟨target, sent, known⟩)
  randomIdsLength := by
    show ((r.sourceMessages ctx db left).map fun ref => left.lookup ref.id).length = copies.length
    rw [List.length_map, batch.sameLength]
  pinnedLength := List.length_replicate

/-- What copying the messages leaves. -/
structure Copied (ctx : Context) (db : Db) (r : ForwardMessages) (left : OrderedDict Nat Int)
    (after : Db) (created : List MessageRef) : Prop where
  sound : after.Sound
  rows : after.refs.table.rows = db.refs.table.rows ++ created
  each : ∀ m ∈ r.sourceMessages ctx db left, ∀ x, left.lookup m.id = some x → ∃ ref ∈ created,
    SentAs ctx r x ref ∧ IsCopy r.dropMediaCaptions m.content ref.content
  only : ∀ ref ∈ created, ∃ m ∈ r.sourceMessages ctx db left, ∃ x, left.lookup m.id = some x ∧
    IsCopy r.dropMediaCaptions m.content ref.content ∧
    (ref.peer.id = r.toPeer.id → SentAs ctx r x ref)

theorem copied_created {after : Db} {created : List MessageRef}
    (batch : Batch db.refs (r.sourceMessages ctx db left) copies)
    (alike : List.Forall₂ (IsCopy r.dropMediaCaptions)
      ((r.sourceMessages ctx db left).map MessageRef.content) copies)
    (fresh : (forwardArgs db.refs (r.sourceMessages ctx db left) copies r.toPeer
      (r.toPeer :: (db.getOpposite r.toPeer).2)
      ((r.sourceMessages ctx db left).map fun ref => left.lookup ref.id) ctx.user.id).Fresh db.refs)
    (made : (forwardArgs db.refs (r.sourceMessages ctx db left) copies r.toPeer
      (r.toPeer :: (db.getOpposite r.toPeer).2)
      ((r.sourceMessages ctx db left).map fun ref => left.lookup ref.id) ctx.user.id).Created
        created)
    (sound : after.Sound) (rows : after.refs.table.rows = db.refs.table.rows ++ created) :
    Copied ctx db r left after created := by
  have alike' : ∀ m c, (m, c) ∈ (r.sourceMessages ctx db left).zip copies →
      IsCopy r.dropMediaCaptions m.content c := fun m c pair =>
    (List.forall₂_iff_zip.mp (List.forall₂_map_left_iff.mp alike)).2 pair
  -- Each new reference stands for one pair of a message and its copy.
  have pairs : ∀ ref ∈ created, ∃ m, (m, ref.content) ∈ (r.sourceMessages ctx db left).zip copies ∧
      (ref.peer.id = r.toPeer.id →
        ref.randomId = left.lookup m.id ∧ ref.randomUserId = some ctx.user.id) := by
    intro ref listed
    obtain ⟨item, zipped, has, -, -, -, target, -⟩ := ForwardForPeers.fields_created made listed
    obtain ⟨m, pair, same⟩ := mem_zip_map_right.mp (mem_zip_of_zip zipped)
    refine ⟨m, has ▸ pair, fun here => ?_⟩
    rw [same]
    exact target here
  refine ⟨sound, rows, fun m listed x found => ?_, fun ref listed => ?_⟩
  · have placed := listed
    rw [← zip_messages batch] at placed
    obtain ⟨⟨n, c⟩, pair, same⟩ := List.mem_map.mp placed
    obtain rfl : n = m := same
    obtain ⟨ref, here, content, peer⟩ := ForwardForPeers.exists_created fresh made
      (List.of_mem_zip pair).2 List.mem_cons_self
    obtain ⟨k, pair', sent⟩ := pairs ref here
    rw [content] at pair'
    obtain ⟨rfl, -⟩ := eq_of_copy batch pair pair' rfl
    obtain ⟨known, user⟩ := sent (congrArg Peer.id peer)
    refine ⟨ref, here, sentAs_iff.mpr ⟨congrArg Peer.id peer, user, known.trans found⟩, ?_⟩
    rw [content]
    exact alike' _ _ pair
  · obtain ⟨m, pair, sent⟩ := pairs ref listed
    have source := (List.of_mem_zip pair).1
    obtain ⟨x, found⟩ := (mem_sourceMessages.mp source).2
    refine ⟨m, source, x, found, alike' _ _ pair, fun target => ?_⟩
    obtain ⟨known, user⟩ := sent target
    exact sentAs_iff.mpr ⟨target, user, known.trans found⟩

theorem forwardCopies_cases (sound : db.Sound) (resolved : r.toPeer ∈ db.peers)
    (distinct : r.randomId.Nodup)
    (spec : ∀ i x, left.lookup i = some x ↔ r.randomIds.lookup i = some x ∧ Unsent ctx db r x)
    (accepted : Unrefused (r.forwardCopies ctx db left (r.sourceMessages ctx db left))) :
    ((r.dropAuthor = true ∨ ∀ m ∈ r.sourceMessages ctx db left, Credited r.toPeer.isSelf m) ∧
      ∃ after created,
        r.forwardCopies ctx db left (r.sourceMessages ctx db left) = .ok (after, created) ∧
          Copied ctx db r left after created) ∨
    (¬ (r.dropAuthor = true ∨ ∀ m ∈ r.sourceMessages ctx db left, Credited r.toPeer.isSelf m) ∧
      r.forwardCopies ctx db left (r.sourceMessages ctx db left) = .error .other) := by
  unfold ForwardMessages.forwardCopies at accepted ⊢
  dsimp only at accepted ⊢
  cases chosen : ctx.sendAs.mapError Refusal.failure with
  | error failure =>
    rw [chosen] at accepted
    cases given : ctx.sendAs with
    | error refusal =>
      rw [given] at chosen
      cases chosen
      exact absurd rfl (accepted refusal.code refusal.message)
    | ok sendAs =>
      rw [given] at chosen
      cases chosen
  | ok sendAs =>
    have settled : Unrefused (r.fwdHeaders ctx (r.sourceMessages ctx db left)) :=
      unrefused_fwdHeaders
    rcases settled.cases with failed | ⟨headers, headed⟩
    · refine .inr ⟨fun credited => ?_, by rw [failed]; rfl⟩
      obtain ⟨headers, headed⟩ := exists_fwdHeaders.mpr credited
      rw [failed] at headed
      cases headed
    · refine .inl ⟨exists_fwdHeaders.mp ⟨headers, headed⟩, ?_⟩
      have decided : (r.cloneForward ctx sendAs).Decided := ⟨rfl, rfl⟩
      obtain ⟨copies, cloned, ids, alike⟩ := cloneBulk_spec decided
        ((r.sourceMessages ctx db left).map MessageRef.content)
        (db.getOpposite r.toPeer).1.nextContentId headers
        (makeChannelPostInfoMany (db.getOpposite r.toPeer).1.nextPostInfoId r.toPeer ctx.user
          ctx.toParticipant (r.sourceMessages ctx db left).length).2.1
        ((r.sourceMessages ctx db left).map fun ref =>
          ref.content.mediaGroupId.map ctx.mediaGroupIds)
        (by rw [fwdHeaders_length headed, List.length_map])
        (by rw [postInfos_length, List.length_map])
        (by rw [List.length_map, List.length_map])
      rw [List.length_map, getOpposite_frame.2] at ids
      have batch := batch_sourceMessages alike ids
      have fresh := fresh_forwardArgs sound resolved distinct spec batch ids
      obtain ⟨after, created, ran, rows, made⟩ := ForwardForPeers.forwardForPeersBulk_spec fresh
      refine ⟨{ (db.getOpposite r.toPeer).1 with
          refs := after
          nextContentId := (db.getOpposite r.toPeer).1.nextContentId +
            (r.sourceMessages ctx db left).length
          nextPostInfoId := (db.getOpposite r.toPeer).1.nextPostInfoId +
            (r.sourceMessages ctx db left).length },
        created, ?_, copied_created batch alike fresh made ⟨?_, ?_⟩ rows⟩
      · show (r.fwdHeaders ctx (r.sourceMessages ctx db left) >>= _) = _
        rw [headed]
        show ((r.cloneForward ctx sendAs).cloneBulk _ _ _ _ _ >>= _) = _
        rw [cloned]
        show (ForwardForPeers.forwardForPeersBulk _ _ >>= _) = _
        rw [getOpposite_frame.1, ran]
        rfl
      · intro ref there
        rw [Table.mem_def, rows, List.mem_append] at there
        show ref.content.id < (db.getOpposite r.toPeer).1.nextContentId +
          (r.sourceMessages ctx db left).length
        rw [getOpposite_frame.2]
        rcases there with old | new
        · have below := sound.contents ref old
          omega
        · have listed := List.mem_map_of_mem (f := MessageContent.id)
            (only_created fresh made ref new).1
          rw [ids, List.mem_range'_1] at listed
          exact listed.2
      · exact repliesWithin_created fresh made batch sound.replies rows

end Copying

section Outcomes

variable {ctx : Context} {db : Db} {r : ForwardMessages}

theorem refuse_of_unrefused {refusal : Option Refusal} (accepted : Unrefused (refuse refusal)) :
    refuse refusal = .ok () := by
  cases refusal with
  | none => rfl
  | some refusal => exact absurd rfl (accepted refusal.code refusal.message)

theorem require_of_unrefused {check : Bool} {code : Nat} {message : String}
    (accepted : Unrefused (require check (.rpc code message))) : check = true := by
  cases check with
  | true => rfl
  | false => exact absurd rfl (accepted code message)

theorem length_of_unrefused (accepted : Unrefused r.checkIds) :
    r.checkIds = .ok () ∧ r.id.length = r.randomId.length := by
  rw [ForwardMessages.checkIds, unrefused_bind_iff] at accepted
  obtain ⟨named, accepted⟩ := accepted
  have some_ids := require_of_unrefused named
  specialize accepted () (require_eq_ok.mpr some_ids)
  rw [unrefused_bind_iff] at accepted
  obtain ⟨same, accepted⟩ := accepted
  have equal := require_of_unrefused same
  specialize accepted () (require_eq_ok.mpr equal)
  rw [unrefused_bind_iff] at accepted
  obtain ⟨set, accepted⟩ := accepted
  have nonzero := require_of_unrefused set
  have distinct := require_of_unrefused (accepted () (require_eq_ok.mpr nonzero))
  refine ⟨?_, beq_iff_eq.mp equal⟩
  rw [ForwardMessages.checkIds]
  simp only [check_bind_eq_ok, require_eq_ok]
  exact ⟨some_ids, equal, nonzero, distinct⟩

def Copyable (ctx : Context) (db : Db) (r : ForwardMessages) (left : OrderedDict Nat Int) : Prop :=
  r.sourceMessages ctx db left ≠ [] ∧
    (r.dropAuthor = true ∨ ∀ m ∈ r.sourceMessages ctx db left, Credited r.toPeer.isSelf m)

/-- Once the messages are known, they are copied, or the request crashes: nothing is left, or one
does not say where it comes from. -/
theorem forwardLeft_cases (sound : db.Sound) (resolved : r.toPeer ∈ db.peers)
    (distinct : r.randomId.Nodup) {left : OrderedDict Nat Int}
    (spec : ∀ i x, left.lookup i = some x ↔ r.randomIds.lookup i = some x ∧ Unsent ctx db r x)
    (accepted : Unrefused (r.forwardLeft ctx db left)) :
    (Copyable ctx db r left ∧ ∃ after created,
      r.forwardLeft ctx db left = .ok (after, created) ∧ Copied ctx db r left after created) ∨
    (¬ Copyable ctx db r left ∧ r.forwardLeft ctx db left = .error .other) := by
  unfold ForwardMessages.forwardLeft at accepted ⊢
  cases nothing : (r.sourceMessages ctx db left).isEmpty with
  | true =>
    rw [nothing, if_pos rfl, unrefused_bind_iff] at accepted
    have retried := require_of_unrefused accepted.1
    rw [if_pos rfl, retried]
    exact .inr ⟨fun copyable => copyable.1 (List.isEmpty_iff.mp nothing), rfl⟩
  | false =>
    rw [nothing, if_neg Bool.false_ne_true, unrefused_bind_iff] at accepted
    obtain ⟨free, accepted⟩ := accepted
    have free := require_of_unrefused free
    specialize accepted () (require_eq_ok.mpr free)
    rw [unrefused_bind_iff] at accepted
    obtain ⟨allowed, accepted⟩ := accepted
    have allowed := refuse_of_unrefused allowed
    specialize accepted () allowed
    rw [if_neg Bool.false_ne_true, free, allowed]
    have some_left : r.sourceMessages ctx db left ≠ [] := by
      rwa [← List.isEmpty_eq_false_iff]
    rw [Copyable, and_iff_right some_left]
    exact forwardCopies_cases sound resolved distinct spec accepted

theorem forwardMessages_cases (sound : db.Sound) (resolved : r.toPeer ∈ db.peers)
    (distinct : r.randomId.Nodup) (earlier : Earlier ctx db r)
    (accepted : Unrefused (forwardMessages ctx db r)) :
    r.id.length = r.randomId.length ∧ ∃ left : OrderedDict Nat Int,
      (∀ i x, left.lookup i = some x ↔ r.randomIds.lookup i = some x ∧ Unsent ctx db r x) ∧
      ((Copyable ctx db r left ∧ ∃ after created,
          forwardMessages ctx db r = .ok (after, created) ∧ Copied ctx db r left after created) ∨
        (¬ Copyable ctx db r left ∧ forwardMessages ctx db r = .error .other)) := by
  unfold forwardMessages at accepted ⊢
  rw [unrefused_bind_iff] at accepted
  obtain ⟨admitted, accepted⟩ := accepted
  have admitted := refuse_of_unrefused admitted
  specialize accepted () admitted
  rw [unrefused_bind_iff] at accepted
  obtain ⟨checked, accepted⟩ := accepted
  obtain ⟨passed, same⟩ := length_of_unrefused checked
  specialize accepted () passed
  obtain ⟨left, taken, spec⟩ := subtract_existing distinct earlier
  rw [unrefused_bind_iff] at accepted
  refine ⟨same, left, spec, ?_⟩
  rw [admitted, passed, taken]
  exact forwardLeft_cases sound resolved distinct spec (accepted.2 left taken)

theorem lookup_of_fits {left : OrderedDict Nat Int}
    (spec : ∀ i x, left.lookup i = some x ↔ r.randomIds.lookup i = some x ∧ Unsent ctx db r x)
    (once : ∀ j k i : Nat, j < k → r.id[j]? = some i → r.id[k]? = some i →
      ∀ m, ¬ Source ctx db r i m)
    (within : ∀ k i : Nat, 100 ≤ k → r.id[k]? = some i → ∀ m, ¬ Source ctx db r i m)
    {x : Int} {m : MessageRef} (sends : Sends ctx db r x m) :
    r.randomIds.lookup m.id = some x ∧
      (Unsent ctx db r x → m ∈ r.sourceMessages ctx db left ∧ left.lookup m.id = some x) := by
  obtain ⟨k, i, named, sent, source⟩ := sends
  have less : k < 100 := by
    by_contra beyond
    exact within k i (Nat.le_of_not_lt beyond) named m source
  have only : ∀ l < 100, r.id[l]? = some i → l = k := by
    intro l _ named'
    rcases Nat.lt_trichotomy l k with before | same | after
    · exact absurd source (once l k i before named' named m)
    · exact same
    · exact absurd source (once k l i after named named' m)
  obtain rfl := source.2.1
  have found := lookup_of_position less named sent only
  refine ⟨found, fun unsent => ?_⟩
  have kept := (spec m.id x).mpr ⟨found, unsent⟩
  exact ⟨mem_sourceMessages.mpr ⟨source, x, kept⟩, kept⟩

theorem sends_of_lookup {left : OrderedDict Nat Int}
    (spec : ∀ i x, left.lookup i = some x ↔ r.randomIds.lookup i = some x ∧ Unsent ctx db r x)
    {x : Int} {m : MessageRef} (listed : m ∈ r.sourceMessages ctx db left)
    (found : left.lookup m.id = some x) : Sends ctx db r x m ∧ Unsent ctx db r x := by
  obtain ⟨kept, unsent⟩ := (spec m.id x).mp found
  obtain ⟨k, -, named, sent⟩ := position_of_lookup kept
  exact ⟨⟨k, m.id, named, sent, (mem_sourceMessages.mp listed).1⟩, unsent⟩

/-- A reference that the request or an earlier one has sent is a copy of the message that goes
under its random identifier. -/
theorem copy_of_sentAs (earlier : Earlier ctx db r)
    {left : OrderedDict Nat Int} {after : Db} {created : List MessageRef}
    (spec : ∀ i x, left.lookup i = some x ↔ r.randomIds.lookup i = some x ∧ Unsent ctx db r x)
    (copied : Copied ctx db r left after created) {x : Int} (listed : x ∈ r.randomId)
    {ref : MessageRef} (there : ref ∈ after.refs.table) (sent : SentAs ctx r x ref) :
    ∃ i, r.randomIds.lookup i = some x ∧
      ∀ m ∈ db.refs.table, m.id = i → IsCopy r.dropMediaCaptions m.content ref.content := by
  rw [Table.mem_def, copied.rows, List.mem_append] at there
  rcases there with old | new
  · exact earlier ref old x listed sent
  · obtain ⟨m, source, y, found, alike, also⟩ := copied.only ref new
    have same : y = x := by
      have known := (sentAs_iff.mp (also (sentAs_iff.mp sent).1)).2.2
      rw [(sentAs_iff.mp sent).2.2] at known
      exact (Option.some.inj known).symm
    subst same
    refine ⟨m.id, ((spec m.id y).mp found).1, fun n stored named => ?_⟩
    rw [Table.eq_of_key_eq stored (mem_sourceMessages.mp source).1.1 named]
    exact alike

theorem complete_of_copied (distinct : r.randomId.Nodup) (earlier : Earlier ctx db r)
    {left : OrderedDict Nat Int} {after : Db} {created : List MessageRef}
    (spec : ∀ i x, left.lookup i = some x ↔ r.randomIds.lookup i = some x ∧ Unsent ctx db r x)
    (copied : Copied ctx db r left after created) (fits : Fits ctx db r) :
    Complete ctx db after r where
  once := by
    intro x m sends
    obtain ⟨found, left_⟩ := lookup_of_fits spec fits.once fits.within sends
    have exists_sent : ∃ ref ∈ after.refs.table, SentAs ctx r x ref := by
      by_cases unsent : Unsent ctx db r x
      · obtain ⟨listed, kept⟩ := left_ unsent
        obtain ⟨ref, new, sent, -⟩ := copied.each m listed x kept
        refine ⟨ref, ?_, sent⟩
        rw [Table.mem_def, copied.rows]
        exact List.mem_append_right _ new
      · simp only [Unsent, not_forall, not_not] at unsent
        obtain ⟨old, stored, sent⟩ := unsent
        refine ⟨old, ?_, sent⟩
        rw [Table.mem_def, copied.rows]
        exact List.mem_append_left _ stored
    obtain ⟨ref, stored, sent⟩ := exists_sent
    exact ⟨ref, ⟨stored, sent⟩, fun other both => eq_of_sentAs both.1 stored both.2 sent⟩
  copies := by
    intro x m sends ref there sent
    obtain ⟨found, -⟩ := lookup_of_fits spec fits.once fits.within sends
    obtain ⟨k, i, -, listed, source⟩ := sends
    obtain ⟨j, found', alike⟩ := copy_of_sentAs earlier spec copied
      (List.mem_of_getElem? listed) there sent
    obtain rfl := eq_of_lookup distinct found found'
    exact alike m source.1 rfl
  kept := by
    intro ref stored
    rw [Table.mem_def, copied.rows]
    exact List.mem_append_left _ stored
  added := by
    intro ref there fresh
    rw [Table.mem_def, copied.rows, List.mem_append] at there
    obtain ⟨m, listed, x, found, alike, sent⟩ := copied.only ref (there.resolve_left fresh)
    obtain ⟨sends, unsent⟩ := sends_of_lookup spec listed found
    exact ⟨x, m, sends, unsent, alike, sent⟩

/-- A message that was sent under the random identifier of a position goes under it in the
dictionary. -/
theorem lookup_of_complete (distinct : r.randomId.Nodup) (earlier : Earlier ctx db r)
    {left : OrderedDict Nat Int} {after : Db} {created : List MessageRef}
    (spec : ∀ i x, left.lookup i = some x ↔ r.randomIds.lookup i = some x ∧ Unsent ctx db r x)
    (copied : Copied ctx db r left after created) (complete : Complete ctx db after r)
    (same : r.id.length = r.randomId.length) {k i : Nat} {m : MessageRef}
    (named : r.id[k]? = some i) (source : Source ctx db r i m) :
    k < 100 ∧ ∃ x, r.randomId[k]? = some x ∧ r.randomIds.lookup i = some x := by
  obtain ⟨less, -⟩ := List.getElem?_eq_some_iff.mp named
  rw [same] at less
  have sent : r.randomId[k]? = some r.randomId[k] := List.getElem?_eq_getElem less
  obtain ⟨ref, ⟨stored, sentAs⟩, -⟩ := complete.once _ m ⟨k, i, named, sent, source⟩
  obtain ⟨j, found, -⟩ := copy_of_sentAs earlier spec copied
    (List.mem_of_getElem? sent) stored sentAs
  obtain ⟨l, early, named', sent'⟩ := position_of_lookup found
  obtain rfl := eq_of_getElem? distinct sent sent'
  obtain rfl := Option.some.inj (named.symm.trans named')
  exact ⟨early, _, sent, found⟩

theorem earlier_of_unsent (unsent : ∀ x ∈ r.randomId, Unsent ctx db r x) : Earlier ctx db r :=
  fun ref stored x listed sent => absurd sent (unsent x listed ref stored)

/-- An execution of a request for stored messages is an earlier one for its retries. -/
theorem earlier_forwardMessages (sound : db.Sound) (resolved : r.toPeer ∈ db.peers)
    (distinct : r.randomId.Nodup) (earlier : Earlier ctx db r)
    (known : ∀ i ∈ r.id, ∃ m ∈ db.refs.table, m.id = i) {after : Db} {created : List MessageRef}
    (ran : forwardMessages ctx db r = .ok (after, created)) : Earlier ctx after r := by
  obtain ⟨-, left, spec, outcome⟩ :=
    forwardMessages_cases sound resolved distinct earlier (ran ▸ unrefused_ok _)
  rcases outcome with ⟨-, after', created', ran', copied⟩ | ⟨-, crashed⟩
  · obtain ⟨rfl, rfl⟩ := Prod.mk.inj (Except.ok.inj (ran.symm.trans ran'))
    intro ref there x listed sent
    obtain ⟨i, found, alike⟩ := copy_of_sentAs earlier spec copied listed there sent
    refine ⟨i, found, fun m here named => ?_⟩
    obtain ⟨k, -, at_, -⟩ := position_of_lookup found
    obtain ⟨old, stored, same⟩ := known i (List.mem_of_getElem? at_)
    have still : old ∈ after.refs.table := by
      rw [Table.mem_def, copied.rows]
      exact List.mem_append_left _ stored
    rw [Table.eq_of_key_eq here still (named.trans same.symm)]
    exact alike old stored same
  · rw [crashed] at ran
    cases ran

/-- An accepted request sends every message once under its random identifier, whatever earlier
executions of it have done, exactly when one is left, no message is named twice or after the first
100 and each of those that are left says where it comes from. -/
theorem forwardMessages_complete_iff (sound : db.Sound) (resolved : r.toPeer ∈ db.peers)
    (distinct : r.randomId.Nodup) (earlier : Earlier ctx db r)
    (accepted : Unrefused (forwardMessages ctx db r)) :
    (∃ after created, forwardMessages ctx db r = .ok (after, created) ∧ Complete ctx db after r) ↔
      Fits ctx db r := by
  obtain ⟨same, left, spec, outcome⟩ :=
    forwardMessages_cases sound resolved distinct earlier accepted
  constructor
  · rintro ⟨after, created, ran, complete⟩
    rcases outcome with ⟨⟨some_left, credited⟩, after', created', ran', copied⟩ | ⟨-, crashed⟩
    · obtain ⟨rfl, rfl⟩ := Prod.mk.inj (Except.ok.inj (ran.symm.trans ran'))
      have within : ∀ k i : Nat, 100 ≤ k → r.id[k]? = some i → ∀ m, ¬ Source ctx db r i m := by
        intro k i beyond named m source
        have less := (lookup_of_complete distinct earlier spec copied complete same named source).1
        omega
      have once : ∀ j k i : Nat, j < k → r.id[j]? = some i → r.id[k]? = some i →
          ∀ m, ¬ Source ctx db r i m := by
        intro j k i before named named' m source
        obtain ⟨-, x, sent, found⟩ :=
          lookup_of_complete distinct earlier spec copied complete same named source
        obtain ⟨-, y, sent', found'⟩ :=
          lookup_of_complete distinct earlier spec copied complete same named' source
        obtain rfl := Option.some.inj (found.symm.trans found')
        exact Nat.ne_of_lt before (eq_of_getElem? distinct sent sent')
      refine ⟨?_, once, within, credited.imp_right fun all x m sends unsent => ?_⟩
      · obtain ⟨m, listed⟩ := List.exists_mem_of_ne_nil _ some_left
        obtain ⟨x, found⟩ := (mem_sourceMessages.mp listed).2
        exact ⟨x, m, sends_of_lookup spec listed found⟩
      · exact all m ((lookup_of_fits spec once within sends).2 unsent).1
    · rw [crashed] at ran
      cases ran
  · intro fits
    rcases outcome with ⟨-, after, created, ran, copied⟩ | ⟨uncredited, -⟩
    · exact ⟨after, created, ran, complete_of_copied distinct earlier spec copied fits⟩
    · refine absurd ⟨?_, fits.credited.imp_right fun all m listed => ?_⟩ uncredited
      · obtain ⟨x, m, sends, unsent⟩ := fits.left
        exact List.ne_nil_of_mem ((lookup_of_fits spec fits.once fits.within sends).2 unsent).1
      · obtain ⟨x, found⟩ := (mem_sourceMessages.mp listed).2
        obtain ⟨sends, unsent⟩ := sends_of_lookup spec listed found
        exact all x m sends unsent

end Outcomes

section Samples

/-- Two messages in one group, the second of which was forwarded to another group before. -/
private def forwardedBefore : Db where
  peers := ⟨[group 1 5, group 2 6], by decide⟩
  refs :=
    { table := ⟨[{ id := 1, peer := group 1 5, content := text 1 },
        { id := 2, peer := group 1 5, content := text 2 },
        { id := 3, peer := group 2 6, content := text 3, randomId := some 12,
          randomUserId := some 1 }], by decide⟩
      contentOnce := by decide
      randomOnce := by decide }
  nextContentId := 4
  nextPostInfoId := 0

private def plainContext : Context where
  user := alice
  toParticipant := none
  refusal := none
  visible := fun _ => true
  mediaRefusal := fun _ => none
  sendAs := .ok none
  privacyRules := fun _ => true
  mediaGroupIds := id
  now := 0

private def both : ForwardMessages := ⟨group 1 5, group 2 6, [1, 2], [11, 12], false, false, false⟩

private def twice : ForwardMessages := ⟨group 1 5, group 2 6, [1, 1], [11, 13], false, false, false⟩

theorem forwardedBefore_sound : forwardedBefore.Sound where
  contents := by
    show ∀ ref ∈ [_, _, _], _
    decide
  replies := by
    intro m here k replied
    have plain : ∀ m ∈ forwardedBefore.refs.table.rows, m.replyTo = none := by decide
    rw [plain m here] at replied
    cases replied

/-- The copy of the second message is the one that the request sends under its identifier. -/
theorem earlier_both : Earlier plainContext forwardedBefore both := by
  intro ref stored x listed sent
  have alone : ∀ ref ∈ forwardedBefore.refs.table.rows, ref.randomId ≠ none →
      ref.randomId = some 12 ∧ ref.content = text 3 := by decide
  have known := (sentAs_iff.mp sent).2.2
  obtain ⟨only, content⟩ := alone ref stored (by rw [known]; exact Option.some_ne_none x)
  obtain rfl := Option.some.inj (known.symm.trans only)
  refine ⟨2, rfl, fun m here named => ?_⟩
  have second : ∀ m ∈ forwardedBefore.refs.table.rows, m.id = 2 → m.content = text 2 := by decide
  rw [second m here named, content]
  exact ⟨rfl, rfl, rfl, rfl, rfl⟩

/-- The retry of a request half of which was executed. -/
theorem retry_completes :
    (∃ after created, forwardMessages plainContext forwardedBefore both = .ok (after, created) ∧
        Complete plainContext forwardedBefore after both) ↔
      Fits plainContext forwardedBefore both :=
  forwardMessages_complete_iff forwardedBefore_sound (List.mem_cons_of_mem _ List.mem_cons_self)
    (by decide) earlier_both fun code message refused => by cases refused

/-- A message that is named twice is sent under the second random identifier only. -/
theorem named_twice_sent_once :
    (∃ after created, forwardMessages plainContext forwardedBefore twice = .ok (after, created)) ∧
      ¬ ∃ after created, forwardMessages plainContext forwardedBefore twice = .ok (after, created) ∧
        Complete plainContext forwardedBefore after twice := by
  refine ⟨⟨_, _, rfl⟩, ?_⟩
  rintro ⟨after, created, ran, complete⟩
  have rows : (forwardMessages plainContext forwardedBefore twice).map
      (fun p => p.1.refs.table.rows.map MessageRef.randomId) =
        .ok [none, none, some 12, some 13] := rfl
  rw [ran] at rows
  have sends : Sends plainContext forwardedBefore twice 11
      { id := 1, peer := group 1 5, content := text 1 } :=
    ⟨0, 1, rfl, rfl, List.mem_cons_self, rfl, rfl⟩
  obtain ⟨ref, ⟨stored, sent⟩, -⟩ := complete.once 11 _ sends
  have listed := List.mem_map_of_mem (f := MessageRef.randomId) stored
  rw [show after.refs.table.rows.map MessageRef.randomId = [none, none, some 12, some 13] from
    Except.ok.inj rows, (sentAs_iff.mp sent).2.2] at listed
  revert listed
  decide

end Samples

end Piltover.Forwarding
