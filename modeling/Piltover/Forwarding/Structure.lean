/- source: piltover/app/handlers/messages/sending.py, piltover/db/models/message_ref.py
   digest: Forwarded copies keep order, replies and pins, and count as roots of comment threads. -/

import Piltover.Forwarding.Copies

set_option autoImplicit false

namespace Piltover.Forwarding

open Piltover.Contents
open Piltover.Foundation

def oldIdsToNewIds (messages : List MessageRef) (copies : List MessageContent) :
    OrderedDict Nat Nat :=
  OrderedDict.ofPairs ((messages.zip copies).map fun pair => (pair.1.content.id, pair.2.id))

/-- The message that another one replies to. -/
def replyTo (refs : Refs) (message : MessageRef) : Option MessageRef :=
  message.replyTo.bind refs.table.get

def replyToContentIds (refs : Refs) (messages : List MessageRef) (copies : List MessageContent) :
    List (Option Nat) :=
  messages.map fun old =>
    (replyTo refs old).bind fun target =>
      (oldIdsToNewIds messages copies).lookup target.content.id

/-- The arguments with which `forward_messages` calls `forward_for_peers_bulk`. -/
def forwardArgs (refs : Refs) (messages : List MessageRef) (copies : List MessageContent)
    (toPeer : Peer) (peers : List Peer) (randomIds : List (Option Int)) (userId : Nat) :
    ForwardForPeers where
  newContents := copies
  toPeer := toPeer
  peers := peers
  randomIds := randomIds
  randomUserId := some userId
  replyToContentIds := replyToContentIds refs messages copies
  -- `SingleElementList(False, len(forwarded_contents))`.
  pinned := List.replicate copies.length false
  isDiscussion := List.replicate copies.length false

/-- The messages to forward, in the order of their identifiers, and their new copies. -/
structure Batch (refs : Refs) (messages : List MessageRef) (copies : List MessageContent) : Prop where
  ordered : messages.Pairwise fun m n => m.id < n.id
  stored : ∀ m ∈ messages, m ∈ refs.table
  onePeer : ∀ m ∈ messages, ∀ n ∈ messages, m.peer.id = n.peer.id
  copiesOrdered : copies.Pairwise fun c d => c.id < d.id
  sameLength : copies.length = messages.length

/-- Messages reply to messages of their peer. -/
def RepliesWithin (refs : Refs) : Prop :=
  ∀ m ∈ refs.table, ∀ k, m.replyTo = some k → ∃ n ∈ refs.table, n.id = k ∧ n.peer.id = m.peer.id

/-- The references keep the order of the sources and their replies among each other. -/
structure KeepsOrder (messages : List MessageRef) (copies : List MessageContent)
    (peers : List Peer) (created : List MessageRef) : Prop where
  complete : ∀ copy ∈ copies, ∀ peer ∈ peers,
    ∃! m, m ∈ created ∧ m.content = copy ∧ m.peer = peer
  only : ∀ m ∈ created, m.content ∈ copies ∧ m.peer ∈ peers
  ordered : ∀ s c, (s, c) ∈ messages.zip copies → ∀ t d, (t, d) ∈ messages.zip copies →
    s.id < t.id → ∀ m ∈ created, m.content = c → ∀ n ∈ created, n.content = d →
      m.peer = n.peer → m.id < n.id
  replies : ∀ s c, (s, c) ∈ messages.zip copies → ∀ t d, (t, d) ∈ messages.zip copies →
    ∀ m ∈ created, m.content = c → ∀ n ∈ created, n.content = d → n.peer = m.peer →
      (m.replyTo = some n.id ↔ s.replyTo = some t.id)
  inside : ∀ m ∈ created, ∀ k, m.replyTo = some k → ∃ n ∈ created, n.id = k ∧ n.peer = m.peer
  unpinned : ∀ m ∈ created, m.pinned = false

/-- One reference for each message and peer, in order and with their replies, none of them pinned
and none of them the root of a comment thread. -/
def ForwardsFaithfully (refs : Refs) (messages : List MessageRef) (copies : List MessageContent)
    (peers : List Peer) (args : ForwardForPeers) : Prop :=
  ∃ after created, args.forwardForPeersBulk refs = .ok (after, created) ∧
    after.table.rows = refs.table.rows ++ created ∧ KeepsOrder messages copies peers created ∧
    ∀ m ∈ created, m.isDiscussion = false

section Keeping

variable {refs : Refs} {messages : List MessageRef} {copies : List MessageContent} {toPeer : Peer}
  {peers : List Peer} {randomIds : List (Option Int)} {userId : Nat}

theorem zip_messages (batch : Batch refs messages copies) :
    (messages.zip copies).map Prod.fst = messages := by
  have same := batch.sameLength
  apply List.map_fst_zip
  omega

theorem zip_copies (batch : Batch refs messages copies) :
    (messages.zip copies).map Prod.snd = copies := by
  have same := batch.sameLength
  apply List.map_snd_zip
  omega

theorem zip_grow (batch : Batch refs messages copies) : (messages.zip copies).Pairwise fun p q =>
    p.2.id < q.2.id ∧ p.1.id ≤ q.1.id := by
  have sources := batch.ordered
  have news := batch.copiesOrdered
  rw [← zip_messages batch, List.pairwise_map] at sources
  rw [← zip_copies batch, List.pairwise_map] at news
  exact news.imp₂ (fun _ _ less less' => ⟨less, Nat.le_of_lt less'⟩) sources

theorem copy_lt (batch : Batch refs messages copies) {s t : MessageRef} {c d : MessageContent}
    (first : (s, c) ∈ messages.zip copies) (second : (t, d) ∈ messages.zip copies)
    (less : s.id < t.id) : c.id < d.id :=
  lt_of_pairwise (f := fun p : MessageRef × MessageContent => p.2.id) (g := fun p => p.1.id)
    (zip_grow batch) first second less

theorem eq_of_copy (batch : Batch refs messages copies) {s t : MessageRef} {c d : MessageContent}
    (first : (s, c) ∈ messages.zip copies) (second : (t, d) ∈ messages.zip copies)
    (same : c.id = d.id) : s = t ∧ c = d := by
  have once : ((messages.zip copies).map fun p => p.2.id).Nodup := by
    rw [List.Nodup, List.pairwise_map]
    exact (zip_grow batch).imp fun less => Nat.ne_of_lt less.1
  have equal : (s, c) = (t, d) := List.inj_on_of_nodup_map once first second same
  exact Prod.mk.inj equal

theorem eq_of_content {m n : MessageRef} (here : m ∈ refs.table) (there : n ∈ refs.table)
    (peer : m.peer.id = n.peer.id) (content : m.content.id = n.content.id) : m = n :=
  List.inj_on_of_nodup_map refs.contentOnce here there (Prod.ext peer content)

theorem contents_once (batch : Batch refs messages copies) :
    (messages.map fun m => m.content.id).Nodup := by
  rw [List.Nodup, List.pairwise_map]
  refine batch.ordered.imp_of_mem fun {m n} here there less same => ?_
  have equal := eq_of_content (batch.stored m here) (batch.stored n there)
    (batch.onePeer m here n there) same
  rw [equal] at less
  exact Nat.lt_irrefl _ less

theorem lookup_oldIdsToNewIds (batch : Batch refs messages copies) {old new : Nat} :
    (oldIdsToNewIds messages copies).lookup old = some new ↔
      ∃ t d, (t, d) ∈ messages.zip copies ∧ t.content.id = old ∧ d.id = new := by
  have once : (((messages.zip copies).map fun pair => (pair.1.content.id, pair.2.id)).map
      Prod.fst).Nodup := by
    have same := contents_once batch
    rw [← zip_messages batch, List.map_map] at same
    rw [List.map_map]
    exact same
  rw [oldIdsToNewIds, OrderedDict.lookup_ofPairs_iff once, List.mem_map]
  constructor
  · rintro ⟨⟨t, d⟩, pair, same⟩
    obtain ⟨rfl, rfl⟩ := Prod.mk.inj same
    exact ⟨t, d, pair, rfl, rfl⟩
  · rintro ⟨t, d, pair, rfl, rfl⟩
    exact ⟨(t, d), pair, rfl⟩

theorem lookup_repliesByContentId (batch : Batch refs messages copies)
    (within : RepliesWithin refs) {s : MessageRef} {c : MessageContent}
    (pair : (s, c) ∈ messages.zip copies) {new : Nat} :
    (forwardArgs refs messages copies toPeer peers randomIds userId).repliesByContentId.lookup c.id =
        some new ↔
      ∃ t d, (t, d) ∈ messages.zip copies ∧ s.replyTo = some t.id ∧ d.id = new := by
  have target : ∀ t d, (t, d) ∈ messages.zip copies → ∀ u, replyTo refs s = some u →
      (t.content.id = u.content.id ↔ t = u) := by
    intro t d other u replied
    refine ⟨fun same => ?_, fun equal => by rw [equal]⟩
    obtain ⟨k, told, found⟩ := Option.bind_eq_some_iff.mp replied
    obtain ⟨there, rfl⟩ := Table.get_eq_some_iff.mp found
    have here := batch.stored s (List.of_mem_zip pair).1
    obtain ⟨v, there', numbered, peer⟩ := within s here u.id told
    obtain rfl := Table.eq_of_key_eq there' there numbered
    refine eq_of_content (batch.stored t (List.of_mem_zip other).1) there ?_ same
    rw [peer]
    exact batch.onePeer t (List.of_mem_zip other).1 s (List.of_mem_zip pair).1
  have chosen : ((replyTo refs s).bind fun target =>
      (oldIdsToNewIds messages copies).lookup target.content.id) = some new ↔
      ∃ t d, (t, d) ∈ messages.zip copies ∧ s.replyTo = some t.id ∧ d.id = new := by
    rw [Option.bind_eq_some_iff]
    constructor
    · rintro ⟨u, replied, found⟩
      obtain ⟨t, d, other, same, numbered⟩ := (lookup_oldIdsToNewIds batch).mp found
      obtain rfl := (target t d other u replied).mp same
      obtain ⟨k, told, got⟩ := Option.bind_eq_some_iff.mp replied
      obtain ⟨-, rfl⟩ := Table.get_eq_some_iff.mp got
      exact ⟨t, d, other, told, numbered⟩
    · rintro ⟨t, d, other, told, numbered⟩
      refine ⟨t, ?_, (lookup_oldIdsToNewIds batch).mpr ⟨t, d, other, rfl, numbered⟩⟩
      rw [replyTo, told]
      exact Table.get_eq_some_iff.mpr ⟨batch.stored t (List.of_mem_zip other).1, rfl⟩
  have once : (((copies.zip (replyToContentIds refs messages copies)).filterMap fun pair =>
      pair.2.map fun replyToContentId => (pair.1.id, replyToContentId)).map Prod.fst).Nodup := by
    rw [List.map_filterMap, List.Nodup, List.pairwise_filterMap]
    have news : ((copies.zip (replyToContentIds refs messages copies)).map Prod.fst).Pairwise
        fun c d => c.id < d.id := by
      rw [List.map_fst_zip (by rw [replyToContentIds, List.length_map, batch.sameLength])]
      exact batch.copiesOrdered
    refine (List.pairwise_map.mp news).imp fun less key keyed key' keyed' same => ?_
    simp only [Option.map_map, Option.map_eq_some_iff, Function.comp_apply] at keyed keyed'
    obtain ⟨-, -, rfl⟩ := keyed
    obtain ⟨-, -, rfl⟩ := keyed'
    exact Nat.ne_of_lt less same
  rw [← chosen, ForwardForPeers.repliesByContentId]
  show (OrderedDict.ofPairs ((copies.zip (replyToContentIds refs messages copies)).filterMap _)).lookup
    c.id = some new ↔ _
  rw [OrderedDict.lookup_ofPairs_iff once, List.mem_filterMap]
  constructor
  · rintro ⟨⟨d, id⟩, listed, same⟩
    obtain ⟨k, rfl, same⟩ := Option.map_eq_some_iff.mp same
    obtain ⟨equal, rfl⟩ := Prod.mk.inj same
    obtain ⟨t, other, made⟩ := mem_zip_map_right.mp listed
    obtain ⟨rfl, rfl⟩ := eq_of_copy batch other pair equal
    exact made
  · intro made
    refine ⟨(c, some new), mem_zip_map_right.mpr ⟨s, pair, made⟩, rfl⟩

section Run

variable {created : List MessageRef}
  (fresh : (forwardArgs refs messages copies toPeer peers randomIds userId).Fresh refs)
  (made : (forwardArgs refs messages copies toPeer peers randomIds userId).Created created)

include fresh made

omit fresh in
theorem unpinned_created : ∀ m ∈ created, m.pinned = false := by
  intro m listed
  obtain ⟨item, zipped, -, -, pinned, -⟩ := ForwardForPeers.fields_created made listed
  rw [pinned]
  exact List.eq_of_mem_replicate (List.of_mem_zip (List.of_mem_zip zipped).2).2

theorem only_created : ∀ m ∈ created, m.content ∈ copies ∧ m.peer ∈ peers := by
  intro m listed
  obtain ⟨item, zipped, has, there, -⟩ := ForwardForPeers.fields_created made listed
  exact ⟨has ▸ ForwardForPeers.mem_newContents fresh zipped, there⟩

theorem complete_created : ∀ copy ∈ copies, ∀ peer ∈ peers,
    ∃! m, m ∈ created ∧ m.content = copy ∧ m.peer = peer := by
  intro copy listed peer recipient
  obtain ⟨m, here, rfl, rfl⟩ := ForwardForPeers.exists_created fresh made listed recipient
  refine ⟨m, ⟨here, rfl, rfl⟩, ?_⟩
  rintro n ⟨there, content, peer⟩
  refine ForwardForPeers.eq_of_place_created fresh made there here ?_
  rw [place, place, content, peer]

theorem created_lt (batch : Batch refs messages copies) {m n : MessageRef} (here : m ∈ created)
    (there : n ∈ created) (less : m.content.id < n.content.id) : m.id < n.id := by
  have contents : created.Pairwise fun m n => m.content.id ≤ n.content.id := by
    have placed : created.map (fun m => m.content.id) = (forwardArgs refs messages copies toPeer
        peers randomIds userId).messages.map fun m => m.content.id := by
      have same := congrArg (List.map Prod.snd) made.places
      rwa [List.map_map, List.map_map] at same
    rw [← List.pairwise_map (R := fun a b : Nat => a ≤ b), placed, List.pairwise_map,
      ForwardForPeers.messages, List.pairwise_flatMap]
    constructor
    · intro item _
      rw [List.pairwise_map]
      exact List.pairwise_of_forall fun _ _ => Nat.le_refl _
    · have news := batch.copiesOrdered
      rw [show copies = (forwardArgs refs messages copies toPeer peers randomIds userId).newContents
        from rfl, ← ForwardForPeers.zipped_contents fresh, List.pairwise_map] at news
      refine news.imp fun less m here n there => ?_
      obtain ⟨p, -, rfl⟩ := List.mem_map.mp here
      obtain ⟨q, -, rfl⟩ := List.mem_map.mp there
      exact Nat.le_of_lt less
  exact lt_of_pairwise (f := MessageRef.id) (g := fun m : MessageRef => m.content.id)
    (made.sorted.imp₂ (fun _ _ less le => ⟨less, le⟩) contents) here there less

omit fresh in
theorem replies_created (batch : Batch refs messages copies) (within : RepliesWithin refs)
    {s t : MessageRef} {c d : MessageContent} (pair : (s, c) ∈ messages.zip copies)
    (other : (t, d) ∈ messages.zip copies) {m n : MessageRef} (here : m ∈ created)
    (copy : m.content = c) (there : n ∈ created) (copy' : n.content = d) (peer : n.peer = m.peer) :
    m.replyTo = some n.id ↔ s.replyTo = some t.id := by
  subst copy copy'
  rw [made.replies m here]
  constructor
  · rintro ⟨new, told, u, stored, named, numbered⟩
    obtain ⟨v, e, third, replied, same⟩ := (lookup_repliesByContentId batch within pair).mp told
    have equal := ForwardForPeers.eq_of_id_created made stored there numbered
    rw [equal] at named
    have content : n.content.id = new := (Prod.mk.inj named).2
    rw [(eq_of_copy batch other third (content.trans same.symm)).1]
    exact replied
  · intro replied
    refine ⟨n.content.id, (lookup_repliesByContentId batch within pair).mpr
      ⟨t, n.content, other, replied, rfl⟩, n, there, ?_, rfl⟩
    rw [place, peer]

theorem keepsOrder_created (batch : Batch refs messages copies) (within : RepliesWithin refs) :
    KeepsOrder messages copies peers created where
  complete := complete_created fresh made
  only := only_created fresh made
  ordered := by
    intro s c pair t d other less m here copy n there copy' _
    refine created_lt fresh made batch here there ?_
    rw [copy, copy']
    exact copy_lt batch pair other less
  replies := fun s c pair t d other m here copy n there copy' peer =>
    replies_created made batch within pair other here copy there copy' peer
  inside := by
    intro m here k replied
    obtain ⟨new, -, n, there, named, numbered⟩ := (made.replies m here k).mp replied
    refine ⟨n, there, numbered, ?_⟩
    exact List.inj_on_of_nodup_map fresh.peersOnce (only_created fresh made n there).2
      (only_created fresh made m here).2 (Prod.mk.inj named).1
  unpinned := unpinned_created made

theorem repliesWithin_created (batch : Batch refs messages copies) (within : RepliesWithin refs)
    {after : Refs} (rows : after.table.rows = refs.table.rows ++ created) :
    RepliesWithin after := by
  intro m here k replied
  simp only [Table.mem_def, rows, List.mem_append] at here ⊢
  rcases here with old | new
  · obtain ⟨n, there, same⟩ := within m old k replied
    exact ⟨n, .inl there, same⟩
  · obtain ⟨n, there, numbered, peer⟩ :=
      (keepsOrder_created fresh made batch within).inside m new k replied
    exact ⟨n, .inr there, numbered, congrArg Peer.id peer⟩

theorem isDiscussion_created : ∀ m ∈ created, m.isDiscussion = true := by
  intro m listed
  obtain ⟨item, zipped, has, -, -, discussion, -⟩ := ForwardForPeers.fields_created made listed
  have copy : item.1 ∈ copies := ForwardForPeers.mem_newContents fresh zipped
  rw [discussion]
  show truth (List.replicate copies.length false) = true
  rw [truth, Bool.not_eq_true', List.isEmpty_eq_false_iff]
  intro nothing
  rw [List.replicate_eq_nil_iff, List.length_eq_zero_iff] at nothing
  rw [nothing] at copy
  cases copy

end Run

/-- Forwarding keeps order, replies and pins; it makes every copy the root of a comment thread, so
that it is faithful only where it makes no copy. -/
theorem forwardForPeersBulk_keeps (batch : Batch refs messages copies)
    (within : RepliesWithin refs)
    (fresh : (forwardArgs refs messages copies toPeer peers randomIds userId).Fresh refs) :
    (∃ after created,
      (forwardArgs refs messages copies toPeer peers randomIds userId).forwardForPeersBulk refs =
          .ok (after, created) ∧
        after.table.rows = refs.table.rows ++ created ∧
        KeepsOrder messages copies peers created ∧ ∀ m ∈ created, m.isDiscussion = true) ∧
      (ForwardsFaithfully refs messages copies peers
          (forwardArgs refs messages copies toPeer peers randomIds userId) ↔
        messages = [] ∨ peers = []) := by
  obtain ⟨after, created, ran, rows, made⟩ := ForwardForPeers.forwardForPeersBulk_spec fresh
  have keeps := keepsOrder_created fresh made batch within
  have roots := isDiscussion_created fresh made
  refine ⟨⟨after, created, ran, rows, keeps, roots⟩, ?_⟩
  constructor
  · rintro ⟨after', created', ran', -, -, plain⟩
    obtain ⟨-, rfl⟩ := Prod.mk.inj (Except.ok.inj (ran.symm.trans ran'))
    by_contra something
    obtain ⟨someMessages, somePeers⟩ := not_or.mp something
    have someCopies : copies ≠ [] := by
      intro nothing
      have same := batch.sameLength
      rw [nothing] at same
      exact someMessages (List.length_eq_zero_iff.mp same.symm)
    obtain ⟨copy, listed⟩ := List.exists_mem_of_ne_nil _ someCopies
    obtain ⟨peer, recipient⟩ := List.exists_mem_of_ne_nil _ somePeers
    obtain ⟨m, ⟨here, -, -⟩, -⟩ := keeps.complete copy listed peer recipient
    have root := roots m here
    rw [plain m here] at root
    cases root
  · intro nothing
    refine ⟨after, created, ran, rows, keeps, fun m here => ?_⟩
    obtain ⟨copy, recipient⟩ := keeps.only m here
    rcases nothing with none | none
    · have same := batch.sameLength
      rw [none, List.length_nil, List.length_eq_zero_iff] at same
      rw [same] at copy
      cases copy
    · rw [none] at recipient
      cases recipient

end Keeping

section Samples

def alice : User := ⟨1, "Alice", false⟩

def group (id chatId : Nat) : Peer where
  id := id
  ownerId := some 1
  target := .chat ⟨chatId, false⟩
  blocked := false
  apart := fun _ same => by cases same

def text (id : Nat) : MessageContent := { id := id, date := 0, author := some alice }

private def question : MessageRef := { id := 1, peer := group 1 5, content := text 1 }

private def answer : MessageRef :=
  { id := 2, peer := group 1 5, content := text 2, replyTo := some 1 }

/-- A question and its answer. -/
private def talk : Refs where
  table := ⟨[question, answer], by decide⟩
  contentOnce := by decide
  randomOnce := by decide

theorem batch_talk : Batch talk [question, answer] [text 3, text 4] where
  ordered := by decide
  stored := fun _ listed => listed
  onePeer := by decide
  copiesOrdered := by decide
  sameLength := rfl

theorem repliesWithin_talk : RepliesWithin talk := by
  intro m here k replied
  have only : ∀ m ∈ talk.table.rows, m.peer.id = 1 ∧ (m.replyTo = none ∨ m.replyTo = some 1) := by
    decide
  obtain ⟨peer, none | first⟩ := only m here
  · rw [none] at replied
    cases replied
  · rw [first] at replied
    exact ⟨question, List.mem_cons_self, Option.some.inj replied, peer.symm⟩

theorem fresh_talk : (forwardArgs talk [question, answer] [text 3, text 4] (group 2 6) [group 2 6]
    [some 11, some 12] 1).Fresh talk where
  peersOnce := by decide
  contentsOnce := by decide
  contentsNew := by
    show ∀ r ∈ [question, answer], _
    decide
  randomIdsOnce := by
    show [some (11 : Int), some 12].Pairwise _
    decide
  randomIdsNew := by
    show ∀ r ∈ [question, answer], _
    decide
  randomIdsLength := rfl
  pinnedLength := rfl

/-- Forwarding a question with its answer. -/
theorem talk_forwarded :
    (∃ after created,
      (forwardArgs talk [question, answer] [text 3, text 4] (group 2 6) [group 2 6]
          [some 11, some 12] 1).forwardForPeersBulk talk = .ok (after, created) ∧
        after.table.rows = talk.table.rows ++ created ∧
        KeepsOrder [question, answer] [text 3, text 4] [group 2 6] created ∧
        ∀ m ∈ created, m.isDiscussion = true) ∧
      (ForwardsFaithfully talk [question, answer] [text 3, text 4] [group 2 6]
          (forwardArgs talk [question, answer] [text 3, text 4] (group 2 6) [group 2 6]
            [some 11, some 12] 1) ↔
        [question, answer] = [] ∨ [group 2 6] = []) :=
  forwardForPeersBulk_keeps batch_talk repliesWithin_talk fresh_talk

/-- The copy of a question counts as the root of a comment thread. -/
theorem question_becomes_root : ¬ ForwardsFaithfully talk [question, answer] [text 3, text 4]
    [group 2 6] (forwardArgs talk [question, answer] [text 3, text 4] (group 2 6) [group 2 6]
      [some 11, some 12] 1) := by
  rintro ⟨after, created, ran, -, -, plain⟩
  have roots : ((forwardArgs talk [question, answer] [text 3, text 4] (group 2 6) [group 2 6]
      [some 11, some 12] 1).forwardForPeersBulk talk).map
        (fun p => p.2.map MessageRef.isDiscussion) = .ok [true, true] := rfl
  rw [ran] at roots
  have made : created.map MessageRef.isDiscussion = [true, true] := Except.ok.inj roots
  have root : true ∈ created.map MessageRef.isDiscussion := by
    rw [made]
    exact List.mem_cons_self
  obtain ⟨m, here, same⟩ := List.mem_map.mp root
  rw [plain m here] at same
  cases same

end Samples

end Piltover.Forwarding
