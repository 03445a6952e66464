/- source: piltover/app/handlers/channels.py
   digest: Links between channels and their discussion groups stay symmetric, and in which runs. -/

import Piltover.Channels.LinkRights
import Piltover.Foundation.Runs

set_option autoImplicit false

namespace Piltover.Channels

open Piltover.Foundation
open Piltover.Foundation.Runs

/-! ### Runs of the handlers -/

/-- The requests about channels, and what other handlers do to the participants in between. -/
inductive Event
  | createChannel (user : UserId) (r : CreateChannel)
  | setDiscussionGroup (user : UserId) (r : SetDiscussionGroup)
  | deleteChannel (user : UserId) (input : InputChannel)
  | editCreator (user : UserId) (r : EditCreator)
  | updateUsername (user : UserId) (r : UpdateUsername)
  | participantsChange (participants : List (ChannelId × ChatParticipant)) (taken : List String)

def handle (db : Db) : Event → Except Failure Db
  | .createChannel user r => createChannel db user r
  | .setDiscussionGroup user r => setDiscussionGroup db user r
  | .deleteChannel user input => deleteChannel db user input
  | .editCreator user r => editCreator db user r
  | .updateUsername user r => updateUsername db user r
  | .participantsChange participants taken => .ok { db with participants, taken }

/-- A request that fails leaves the tables as they were. -/
def step (db : Db) (e : Event) : Option Db :=
  match handle db e with
  | .ok after => some after
  | .error _ => some db

/-! ### Symmetric links -/

namespace Db

/-- The row of the first channel names the second one as its discussion group. -/
def Links (db : Db) (c g : ChannelId) : Prop :=
  ∃ r ∈ db.channels, r.id = c ∧ r.discussionId = some g

def LiveLink (db : Db) (c g : Channel) : Prop :=
  c ∈ db.channels ∧ c.deleted = false ∧ c.discussionId = some g.id

/-- Flags and links agree, no group has two links or links on, and no request to link fails because
the column is unique. -/
structure DiscussionsSymmetric (db : Db) : Prop where
  marked : ∀ g ∈ db.channels, g.supergroup = true → g.deleted = false →
    (g.isDiscussion = true ↔ ∃! c, db.LiveLink c g)
  shown : ∀ g ∈ db.channels, g.supergroup = true → g.deleted = false →
    (g.nojoinAllowView = true ↔ ∃ c, db.LiveLink c g ∧ db.hasUsername c.id = true)
  notSelf : ∀ c ∈ db.channels, c.deleted = false → c.discussionId ≠ some c.id
  once : ∀ g ∈ db.channels, ∀ c d, db.LiveLink c g → db.LiveLink d g → c = d
  ends : ∀ g ∈ db.channels, (∃ c, db.LiveLink c g) → g.discussionId = none
  linkable : ∀ user r, Channels.setDiscussionGroup db user r ≠ .error .other

structure Linked (db : Db) : Prop where
  fresh : ∀ c ∈ db.channels, c.id < db.nextId
  live : ∀ c ∈ db.channels, c.discussionId ≠ none → c.deleted = false
  target : ∀ c g, db.Links c g →
    ∃ r ∈ db.channels, r.id = g ∧ r.deleted = false ∧ r.isDiscussion = true ∧ r.discussionId = none
  once : ∀ c d g, db.Links c g → db.Links d g → c = d
  marked : ∀ g ∈ db.channels, g.deleted = false → g.isDiscussion = true → ∃ c, db.Links c g.id
  shown : ∀ g ∈ db.channels, g.deleted = false →
    (g.nojoinAllowView = true ↔ ∃ c, db.Links c g.id ∧ db.hasUsername c = true)

end Db

open Db

variable {db after : Db} {user : UserId} {channel : Channel} {group : Option Channel}

theorem links_of_mem {c : Channel} {g : ChannelId} (here : c ∈ db.channels)
    (link : c.discussionId = some g) : db.Links c.id g := ⟨c, here, rfl, link⟩

theorem links_iff {c : Channel} (here : c ∈ db.channels) {g : ChannelId} :
    db.Links c.id g ↔ c.discussionId = some g := by
  refine ⟨?_, links_of_mem here⟩
  rintro ⟨r, there, same, link⟩
  obtain rfl := Table.eq_of_key_eq there here same
  exact link

namespace Db.Linked

theorem links_iff_liveLink (linked : db.Linked) (c : ChannelId) (g : Channel) :
    db.Links c g.id ↔ ∃ r, db.LiveLink r g ∧ r.id = c := by
  constructor
  · rintro ⟨r, here, rfl, link⟩
    exact ⟨r, ⟨here, linked.live r here (by simp [link]), link⟩, rfl⟩
  · rintro ⟨r, ⟨here, _, link⟩, rfl⟩
    exact links_of_mem here link

theorem isDiscussion_false (linked : db.Linked) {c : Channel} (here : c ∈ db.channels)
    (alive : c.deleted = false) (link : c.discussionId ≠ none) : c.isDiscussion = false := by
  by_contra marked
  obtain ⟨d, link'⟩ := linked.marked c here alive (by simpa using marked)
  obtain ⟨r, there, same, _, _, ends⟩ := linked.target d c.id link'
  obtain rfl := Table.eq_of_key_eq there here same
  exact link ends

theorem not_links (linked : db.Linked) {g : Channel} (here : g ∈ db.channels)
    (free : g.isDiscussion = false) (c : ChannelId) : ¬ db.Links c g.id := by
  intro link
  obtain ⟨r, there, same, _, marked, _⟩ := linked.target c g.id link
  obtain rfl := Table.eq_of_key_eq there here same
  rw [free] at marked
  cases marked

theorem nodup_linksOfOthers (linked : db.Linked)
    (free : ∀ g, group = some g → g ∈ db.channels ∧ g.isDiscussion = false) (id : ChannelId) :
    (db.linksOfOthers id ++ (group.map Channel.id).toList).Nodup := by
  have pairwise : db.channels.rows.Pairwise fun c d =>
      ∀ g, c.discussionId = some g → d.discussionId ≠ some g := by
    refine (List.pairwise_map.mp db.channels.unique).imp_of_mem ?_
    intro c d here there apart g link link'
    exact apart (linked.once c.id d.id g (links_of_mem here link) (links_of_mem there link'))
  have others : (db.linksOfOthers id).Nodup := by
    refine List.pairwise_filterMap.mpr ((pairwise.filter _).imp ?_)
    rintro c d apart g link k link' rfl
    exact apart g link link'
  cases group with
  | none => simpa using others
  | some g =>
    rw [Option.map_some, Option.toList_some, List.nodup_append]
    refine ⟨others, List.nodup_singleton _, ?_⟩
    intro k taken h new same
    obtain rfl := List.mem_singleton.mp new
    obtain ⟨c, mem, link⟩ := List.mem_filterMap.mp taken
    have here : c ∈ db.channels := (List.mem_filter.mp mem).1
    obtain ⟨there, unmarked⟩ := free g rfl
    exact linked.not_links there unmarked c.id (links_of_mem here (by rw [link, same]))

theorem group_free {r : SetDiscussionGroup} (linking : Linking db user r channel group) :
    ∀ g, group = some g → g ∈ db.channels ∧ g.isDiscussion = false := by
  rintro g rfl
  rcases resolveGroup_eq_ok.mp linking.resolved with ⟨_, none⟩ |
    ⟨_, h, _, same, found, _, _, free, _⟩
  · cases none
  · obtain rfl := Option.some.inj same
    exact ⟨(getFromInput_mem found).1, free⟩

theorem setDiscussionGroup_eq (linked : db.Linked) {r : SetDiscussionGroup}
    (linking : Linking db user r channel group) :
    setDiscussionGroup db user r = .ok (relinked db channel group) := by
  rw [Channels.setDiscussionGroup_eq linking,
    bulkUpdate_channelsToUpdate (getFromInput_mem linking.found).1 linking.groupThere,
    if_pos (linked.nodup_linksOfOthers (group_free linking) channel.id)]

theorem symmetric (linked : db.Linked) : db.DiscussionsSymmetric where
  marked := by
    intro g here _ alive
    constructor
    · intro marked
      obtain ⟨c, link⟩ := linked.marked g here alive marked
      obtain ⟨r, first, rfl⟩ := (linked.links_iff_liveLink c g).mp link
      refine ⟨r, first, fun s second => ?_⟩
      have link' := (linked.links_iff_liveLink s.id g).mpr ⟨s, second, rfl⟩
      exact Table.eq_of_key_eq second.1 first.1 (linked.once _ _ _ link' link)
    · rintro ⟨c, first, _⟩
      have link := (linked.links_iff_liveLink c.id g).mpr ⟨c, first, rfl⟩
      by_contra unmarked
      exact linked.not_links here (by simpa using unmarked) c.id link
  shown := by
    intro g here _ alive
    rw [linked.shown g here alive]
    constructor
    · rintro ⟨c, link, named⟩
      obtain ⟨r, first, rfl⟩ := (linked.links_iff_liveLink c g).mp link
      exact ⟨r, first, named⟩
    · rintro ⟨r, first, named⟩
      exact ⟨r.id, (linked.links_iff_liveLink r.id g).mpr ⟨r, first, rfl⟩, named⟩
  notSelf := by
    intro c here alive link
    have free := linked.isDiscussion_false here alive (by simp [link])
    exact linked.not_links here free c.id (links_of_mem here link)
  once := by
    intro g _ c d first second
    exact Table.eq_of_key_eq first.1 second.1
      (linked.once c.id d.id g.id (links_of_mem first.1 first.2.2) (links_of_mem second.1 second.2.2))
  ends := by
    rintro g here ⟨c, first⟩
    obtain ⟨r, there, same, _, _, ends⟩ :=
      linked.target c.id g.id (links_of_mem first.1 first.2.2)
    obtain rfl := Table.eq_of_key_eq there here same
    exact ends
  linkable := by
    intro user r failed
    rcases refused_or_linking db user r with ⟨_, _, refused⟩ | ⟨c, group, linking⟩
    · rw [refused] at failed
      cases failed
    · rw [linked.setDiscussionGroup_eq linking] at failed
      cases failed

end Db.Linked

/-! ### What each request keeps -/

/-- The request does not touch a link from the wrong side: linking takes two channels of which the
first is not linked to and the second does not link on; a channel with a discussion group is not
deleted; and a linked channel or group does not change its owner. -/
def Safe (db : Db) : Event → Prop
  | .setDiscussionGroup user r =>
    ∀ channel g, Linking db user r channel (some g) →
      channel.id ≠ g.id ∧ channel.isDiscussion = false ∧ g.discussionId = none
  | .deleteChannel user input =>
    ∀ c, db.getFromInput user input = some c → c.creatorId = user → c.isDiscussion = false →
      c.discussionId = none
  | .editCreator user r =>
    ∀ c target, db.getFromInput user r.channel = some c → c.creatorId = user →
      (db.getParticipant c.id user).isSome = true → r.password = .ok () → r.target = .ok target →
      target ≠ user → (db.getParticipant c.id target).isSome = true →
        c.isDiscussion = false ∧ c.discussionId = none
  | .createChannel _ _ | .updateUsername _ _ | .participantsChange _ _ => True

/-- The part of a row that links are about. -/
def profile (c : Channel) : ChannelId × Bool × Option ChannelId × Bool × Bool :=
  (c.id, c.deleted, c.discussionId, c.isDiscussion, c.nojoinAllowView)

private theorem exists_profile {rows others : List Channel} (same : rows.map profile =
    others.map profile) {r : Channel} (here : r ∈ rows) : ∃ s ∈ others, profile s = profile r :=
  List.mem_map.mp (same ▸ List.mem_map_of_mem here)

private theorem links_congr (same : after.channels.rows.map profile = db.channels.rows.map profile)
    {c g : ChannelId} (link : after.Links c g) : db.Links c g := by
  obtain ⟨r, here, rfl, link⟩ := link
  obtain ⟨s, there, equal⟩ := exists_profile same here
  simp only [profile, Prod.mk.injEq] at equal
  exact ⟨s, there, equal.1, equal.2.2.1.trans link⟩

theorem linked_congr (linked : db.Linked)
    (same : after.channels.rows.map profile = db.channels.rows.map profile)
    (names : ∀ c, after.hasUsername c = db.hasUsername c) (nextId : after.nextId = db.nextId) :
    after.Linked where
  fresh := by
    intro c here
    obtain ⟨s, there, equal⟩ := exists_profile same here
    simp only [profile, Prod.mk.injEq] at equal
    rw [← equal.1, nextId]
    exact linked.fresh s there
  live := by
    intro c here link
    obtain ⟨s, there, equal⟩ := exists_profile same here
    simp only [profile, Prod.mk.injEq] at equal
    rw [← equal.2.1]
    exact linked.live s there (by rwa [equal.2.2.1])
  target := by
    intro c g link
    obtain ⟨r, here, rfl, alive, marked, ends⟩ := linked.target c g (links_congr same link)
    obtain ⟨s, there, equal⟩ := exists_profile same.symm here
    simp only [profile, Prod.mk.injEq] at equal
    exact ⟨s, there, equal.1, equal.2.1.trans alive, equal.2.2.2.1.trans marked,
      equal.2.2.1.trans ends⟩
  once := fun c d g first second =>
    linked.once c d g (links_congr same first) (links_congr same second)
  marked := by
    intro g here alive marked
    obtain ⟨s, there, equal⟩ := exists_profile same here
    simp only [profile, Prod.mk.injEq] at equal
    obtain ⟨c, link⟩ := linked.marked s there (equal.2.1.trans alive) (equal.2.2.2.1.trans marked)
    exact ⟨c, links_congr same.symm (equal.1 ▸ link)⟩
  shown := by
    intro g here alive
    obtain ⟨s, there, equal⟩ := exists_profile same here
    simp only [profile, Prod.mk.injEq] at equal
    rw [← equal.2.2.2.2, linked.shown s there (equal.2.1.trans alive), equal.1]
    refine exists_congr fun c => ?_
    rw [names]
    exact and_congr_left fun _ => ⟨links_congr same.symm, links_congr same⟩

theorem linked_modify (linked : db.Linked) (check : Channel → Bool) (change : Channel → Channel)
    (keeps : ∀ c, (change c).id = c.id) (same : ∀ c, profile (change c) = profile c) :
    Db.Linked { db with channels := db.channels.modify check change keeps } := by
  refine linked_congr linked ?_ (fun _ => rfl) rfl
  simp only [Table.modify, List.map_map]
  refine List.map_congr_left fun c _ => ?_
  cases chosen : check c <;> simp [chosen, same]

/-! #### Linking -/

private theorem links_relinked (there : channel ∈ db.channels) {c k : ChannelId} :
    (relinked db channel group).Links c k ↔
      (c = channel.id ∧ group.map Channel.id = some k) ∨ (c ≠ channel.id ∧ db.Links c k) := by
  constructor
  · rintro ⟨r, here, rfl, link⟩
    obtain ⟨s, old, rfl⟩ := mem_relinked.mp here
    rw [discussionId_relinkRow] at link
    rw [relinkRow_id]
    split_ifs at link with own
    · exact .inl ⟨own, link⟩
    · exact .inr ⟨own, links_of_mem old link⟩
  · rintro (⟨rfl, link⟩ | ⟨other, s, old, rfl, link⟩)
    · refine ⟨relinkRow db channel group channel, mem_relinked.mpr ⟨channel, there, rfl⟩,
        relinkRow_id .., ?_⟩
      rw [discussionId_relinkRow, if_pos rfl, link]
    · refine ⟨relinkRow db channel group s, mem_relinked.mpr ⟨s, old, rfl⟩, relinkRow_id .., ?_⟩
      rw [discussionId_relinkRow, if_neg other, link]

theorem deleted_relinkRow (row : Channel) :
    (relinkRow db channel group row).deleted = row.deleted := by
  unfold relinkRow
  split_ifs <;> rfl

theorem linked_relinked (linked : db.Linked) (there : channel ∈ db.channels)
    (alive : channel.deleted = false) (free : channel.isDiscussion = false)
    (target : ∀ g, group = some g → g ∈ db.channels ∧ g.deleted = false ∧
      g.isDiscussion = false ∧ g.discussionId = none ∧ channel.id ≠ g.id ∧
      channel.discussionId ≠ some g.id) :
    (relinked db channel group).Linked := by
  have noLink (c : ChannelId) : ¬ db.Links c channel.id := linked.not_links there free c
  refine ⟨?_, ?_, ?_, ?_, ?_, ?_⟩
  · intro c here
    obtain ⟨s, old, rfl⟩ := mem_relinked.mp here
    rw [relinkRow_id]
    exact linked.fresh s old
  · intro c here link
    obtain ⟨s, old, rfl⟩ := mem_relinked.mp here
    rw [deleted_relinkRow]
    by_cases own : s.id = channel.id
    · obtain rfl := Table.eq_of_key_eq old there own
      exact alive
    · rw [discussionId_relinkRow, if_neg own] at link
      exact linked.live s old link
  · intro c k link
    rcases (links_relinked there).mp link with ⟨rfl, new⟩ | ⟨other, old⟩
    · obtain ⟨g, rfl, rfl⟩ := Option.map_eq_some_iff.mp new
      obtain ⟨groupThere, groupAlive, _, ends, apart, fresh⟩ := target g rfl
      refine ⟨relinkRow db channel (some g) g, mem_relinked.mpr ⟨g, groupThere, rfl⟩,
        relinkRow_id .., by rw [deleted_relinkRow, groupAlive], ?_, ?_⟩
      · simp [relinkRow, apart.symm, fresh]
      · rw [discussionId_relinkRow, if_neg apart.symm, ends]
    · obtain ⟨s, here, rfl, sAlive, marked, ends⟩ := linked.target c k old
      have own : s.id ≠ channel.id := by
        intro same
        obtain rfl := Table.eq_of_key_eq here there same
        rw [free] at marked
        cases marked
      have kept : channel.discussionId ≠ some s.id := fun first =>
        other (linked.once c channel.id s.id old (links_of_mem there first))
      refine ⟨relinkRow db channel group s, mem_relinked.mpr ⟨s, here, rfl⟩, relinkRow_id ..,
        by rw [deleted_relinkRow, sAlive], ?_, ?_⟩
      · unfold relinkRow
        rw [if_neg own, if_neg kept]
        split_ifs
        · rfl
        · exact marked
      · rw [discussionId_relinkRow, if_neg own, ends]
  · intro c d k first second
    have groupFree {x : ChannelId} (new : group.map Channel.id = some k) : ¬ db.Links x k := by
      obtain ⟨g, rfl, rfl⟩ := Option.map_eq_some_iff.mp new
      obtain ⟨groupThere, _, unmarked, _⟩ := target g rfl
      exact linked.not_links groupThere unmarked x
    rcases (links_relinked there).mp first with ⟨rfl, new⟩ | ⟨_, old⟩ <;>
      rcases (links_relinked there).mp second with ⟨rfl, new'⟩ | ⟨_, old'⟩
    · rfl
    · exact absurd old' (groupFree new)
    · exact absurd old (groupFree new')
    · exact linked.once c d k old old'
  · intro g here gAlive marked
    obtain ⟨s, old, rfl⟩ := mem_relinked.mp here
    rw [deleted_relinkRow] at gAlive
    rw [relinkRow_id]
    by_cases own : s.id = channel.id
    · obtain rfl := Table.eq_of_key_eq old there own
      rw [relinkRow, if_pos rfl, free] at marked
      cases marked
    by_cases left : channel.discussionId = some s.id
    · rw [relinkRow, if_neg own, if_pos left] at marked
      cases marked
    by_cases new : group.map Channel.id = some s.id
    · exact ⟨channel.id, (links_relinked there).mpr (.inl ⟨rfl, new⟩)⟩
    · rw [relinkRow, if_neg own, if_neg left, if_neg new] at marked
      obtain ⟨c, link⟩ := linked.marked s old gAlive marked
      refine ⟨c, (links_relinked there).mpr (.inr ⟨?_, link⟩)⟩
      rintro rfl
      exact left ((links_iff there).mp link)
  · intro g here gAlive
    obtain ⟨s, old, rfl⟩ := mem_relinked.mp here
    rw [deleted_relinkRow] at gAlive
    have named (c : ChannelId) : (relinked db channel group).hasUsername c = db.hasUsername c := rfl
    simp only [relinkRow_id, links_relinked there, named]
    have before := linked.shown s old gAlive
    by_cases own : s.id = channel.id
    · obtain rfl := Table.eq_of_key_eq old there own
      have still : (relinkRow db s group s).nojoinAllowView = s.nojoinAllowView := by
        rw [relinkRow, if_pos rfl]
      rw [still, before]
      constructor
      · rintro ⟨c, link, _⟩
        exact absurd link (noLink c)
      · rintro ⟨c, ⟨rfl, new⟩ | ⟨_, link⟩, _⟩
        · obtain ⟨g, rfl, same⟩ := Option.map_eq_some_iff.mp new
          exact absurd same.symm (target g rfl).2.2.2.2.1
        · exact absurd link (noLink c)
    by_cases left : channel.discussionId = some s.id
    · have hidden : (relinkRow db channel group s).nojoinAllowView = false := by
        rw [relinkRow, if_neg own, if_pos left]
      rw [hidden]
      refine iff_of_false Bool.false_ne_true ?_
      rintro ⟨c, ⟨rfl, new⟩ | ⟨other, link⟩, _⟩
      · obtain ⟨g, rfl, same⟩ := Option.map_eq_some_iff.mp new
        exact (target g rfl).2.2.2.2.2 (same ▸ left)
      · exact other (linked.once c channel.id s.id link (links_of_mem there left))
    by_cases new : group.map Channel.id = some s.id
    · have shows : (relinkRow db channel group s).nojoinAllowView = db.hasUsername channel.id := by
        rw [relinkRow, if_neg own, if_neg left, if_pos new]
      rw [shows]
      constructor
      · intro name
        exact ⟨channel.id, .inl ⟨rfl, new⟩, name⟩
      · rintro ⟨c, ⟨rfl, _⟩ | ⟨_, link⟩, name⟩
        · exact name
        · obtain ⟨g, rfl, same⟩ := Option.map_eq_some_iff.mp new
          obtain ⟨groupThere, _, unmarked, _⟩ := target g rfl
          exact absurd (same ▸ link) (linked.not_links groupThere unmarked c)
    · have still : (relinkRow db channel group s).nojoinAllowView = s.nojoinAllowView := by
        rw [relinkRow, if_neg own, if_neg left, if_neg new]
      rw [still, before]
      refine exists_congr fun c => and_congr_left fun _ => ?_
      constructor
      · intro link
        refine .inr ⟨?_, link⟩
        rintro rfl
        exact left ((links_iff there).mp link)
      · rintro (⟨_, linkNew⟩ | ⟨_, link⟩)
        · exact absurd linkNew new
        · exact link

/-! #### Creation -/

private theorem linked_createChannel (linked : db.Linked) (new : Channel)
    (participants : List (ChannelId × ChatParticipant)) (id : new.id = db.nextId)
    (plain : new.discussionId = none ∧ new.isDiscussion = false ∧ new.nojoinAllowView = false) :
    Db.Linked { db with channels := db.channels.insert new, participants, nextId := db.nextId + 1 } := by
  have free : db.channels.get new.id = none := by
    refine Table.get_eq_none_iff.mpr fun c here same => ?_
    have small := linked.fresh c here
    omega
  have mem {c : Channel} : c ∈ db.channels.insert new ↔ c ∈ db.channels ∨ c = new :=
    Table.mem_insert free
  have links {c g : ChannelId} :
      Db.Links { db with channels := db.channels.insert new, participants, nextId := db.nextId + 1 }
        c g ↔ db.Links c g := by
    constructor
    · rintro ⟨r, here, rfl, link⟩
      rcases mem.mp here with old | rfl
      · exact links_of_mem old link
      · rw [plain.1] at link
        cases link
    · rintro ⟨r, old, rfl, link⟩
      exact ⟨r, mem.mpr (.inl old), rfl, link⟩
  have unlinked (c : ChannelId) : ¬ db.Links c new.id := by
    intro link
    obtain ⟨r, here, same, _⟩ := linked.target c new.id link
    exact Table.get_eq_none_iff.mp free r here same
  refine ⟨?_, ?_, ?_, ?_, ?_, ?_⟩
  · intro c here
    rcases mem.mp here with old | rfl
    · exact Nat.lt_succ_of_lt (linked.fresh c old)
    · show c.id < db.nextId + 1
      omega
  · intro c here link
    rcases mem.mp here with old | rfl
    · exact linked.live c old link
    · exact absurd plain.1 link
  · intro c g link
    obtain ⟨r, old, rest⟩ := linked.target c g (links.mp link)
    exact ⟨r, mem.mpr (.inl old), rest⟩
  · intro c d g first second
    exact linked.once c d g (links.mp first) (links.mp second)
  · intro g here alive marked
    rcases mem.mp here with old | rfl
    · obtain ⟨c, link⟩ := linked.marked g old alive marked
      exact ⟨c, links.mpr link⟩
    · rw [plain.2.1] at marked
      cases marked
  · intro g here alive
    simp only [links]
    rcases mem.mp here with old | rfl
    · exact linked.shown g old alive
    · rw [plain.2.2]
      refine iff_of_false Bool.false_ne_true ?_
      rintro ⟨c, link, _⟩
      exact unlinked c link

/-! #### Deletion -/

private def deletedRow (channel row : Channel) : Channel :=
  if row.id = channel.id then { row with deleted := true, version := channel.version + 1 }
  else if row.discussionId = some channel.id then { row with discussionId := none }
  else row

private theorem deletedRow_id (channel row : Channel) :
    (deletedRow channel row).id = row.id := by
  unfold deletedRow
  split_ifs <;> rfl

private theorem linked_deleted (linked : db.Linked) (there : channel ∈ db.channels)
    (noGroup : channel.discussionId = none)
    (mem : ∀ r, r ∈ after.channels ↔ ∃ s ∈ db.channels, deletedRow channel s = r)
    (names : ∀ c, after.hasUsername c = db.hasUsername c) (nextId : after.nextId = db.nextId) :
    after.Linked := by
  have link_deletedRow {row : Channel} (here : row ∈ db.channels) {k : ChannelId} :
      (deletedRow channel row).discussionId = some k ↔
        row.discussionId = some k ∧ k ≠ channel.id := by
    unfold deletedRow
    by_cases own : row.id = channel.id
    · obtain rfl := Table.eq_of_key_eq here there own
      simp [noGroup]
    · rw [if_neg own]
      by_cases link : row.discussionId = some channel.id
      · rw [if_pos link, link]
        refine iff_of_false (by simp) ?_
        rintro ⟨same, other⟩
        exact other (Option.some.inj same).symm
      · rw [if_neg link]
        constructor
        · intro first
          exact ⟨first, fun same => link (same ▸ first)⟩
        · exact fun both => both.1
  have links {c k : ChannelId} : after.Links c k ↔ db.Links c k ∧ k ≠ channel.id := by
    constructor
    · rintro ⟨r, here, rfl, link⟩
      obtain ⟨s, old, rfl⟩ := (mem r).mp here
      obtain ⟨first, other⟩ := (link_deletedRow old).mp link
      rw [deletedRow_id]
      exact ⟨links_of_mem old first, other⟩
    · rintro ⟨⟨s, old, rfl, first⟩, other⟩
      exact ⟨deletedRow channel s, (mem _).mpr ⟨s, old, rfl⟩, deletedRow_id .., 
        (link_deletedRow old).mpr ⟨first, other⟩⟩
  have alive {row : Channel} (other : row.id ≠ channel.id) :
      (deletedRow channel row).deleted = row.deleted ∧
        (deletedRow channel row).isDiscussion = row.isDiscussion ∧
        (deletedRow channel row).nojoinAllowView = row.nojoinAllowView := by
    unfold deletedRow
    rw [if_neg other]
    split_ifs <;> exact ⟨rfl, rfl, rfl⟩
  have gone {row : Channel} (own : row.id = channel.id) :
      (deletedRow channel row).deleted = true := by
    rw [deletedRow, if_pos own]
  refine ⟨?_, ?_, ?_, ?_, ?_, ?_⟩
  · intro c here
    obtain ⟨s, old, rfl⟩ := (mem c).mp here
    rw [deletedRow_id, nextId]
    exact linked.fresh s old
  · intro c here link
    obtain ⟨s, old, rfl⟩ := (mem c).mp here
    obtain ⟨k, linkSome⟩ := Option.ne_none_iff_exists'.mp link
    obtain ⟨first, _⟩ := (link_deletedRow old).mp linkSome
    have other : s.id ≠ channel.id := by
      intro own
      obtain rfl := Table.eq_of_key_eq old there own
      rw [noGroup] at first
      cases first
    rw [(alive other).1]
    exact linked.live s old (by simp [first])
  · intro c k link
    obtain ⟨first, other⟩ := links.mp link
    obtain ⟨s, old, rfl, sAlive, marked, ends⟩ := linked.target c k first
    refine ⟨deletedRow channel s, (mem _).mpr ⟨s, old, rfl⟩, deletedRow_id ..,
      (alive other).1.trans sAlive, (alive other).2.1.trans marked, ?_⟩
    cases result : (deletedRow channel s).discussionId with
    | none => rfl
    | some j =>
      have before := ((link_deletedRow old).mp result).1
      rw [ends] at before
      cases before
  · intro c d k first second
    exact linked.once c d k (links.mp first).1 (links.mp second).1
  · intro g here gAlive marked
    obtain ⟨s, old, rfl⟩ := (mem g).mp here
    have other : s.id ≠ channel.id := by
      intro own
      rw [gone own] at gAlive
      cases gAlive
    rw [(alive other).1] at gAlive
    rw [(alive other).2.1] at marked
    obtain ⟨c, link⟩ := linked.marked s old gAlive marked
    rw [deletedRow_id]
    exact ⟨c, links.mpr ⟨link, other⟩⟩
  · intro g here gAlive
    obtain ⟨s, old, rfl⟩ := (mem g).mp here
    have other : s.id ≠ channel.id := by
      intro own
      rw [gone own] at gAlive
      cases gAlive
    rw [(alive other).1] at gAlive
    rw [(alive other).2.2, linked.shown s old gAlive]
    refine exists_congr fun c => ?_
    rw [links, deletedRow_id, names]
    exact and_congr_left fun _ => ⟨fun link => ⟨link, other⟩, fun both => both.1⟩

private theorem linked_deleteChannel (linked : db.Linked) {input : InputChannel}
    (safe : Safe db (.deleteChannel user input)) (done : deleteChannel db user input = .ok after) :
    after.Linked := by
  simp only [deleteChannel, orRaise_bind_eq_ok, check_bind_eq_ok, require_eq_ok, beq_iff_eq,
    Except.ok.injEq] at done
  obtain ⟨c, found, creator, rfl⟩ := done
  obtain ⟨there, alive⟩ := getFromInput_mem found
  have noGroup : c.discussionId = none := by
    cases marked : c.isDiscussion with
    | false => exact safe c found creator marked
    | true =>
      by_contra link
      have free := linked.isDiscussion_false there alive link
      rw [marked] at free
      cases free
  cases marked : c.isDiscussion with
  | true =>
    refine linked_deleted linked there noGroup (fun r => ?_) (fun c => by simp [unlinkChannelMaybe,
      marked, Db.hasUsername, Db.updateChannel]) (by simp [unlinkChannelMaybe, marked,
      Db.updateChannel])
    simp only [unlinkChannelMaybe, marked, if_true, Db.updateChannel, Table.mem_modify,
      decide_eq_true_eq, exists_exists_and_eq_and]
    refine exists_congr fun s => and_congr_right fun old => ?_
    rw [deletedRow]
    by_cases own : s.id = c.id
    · obtain rfl := Table.eq_of_key_eq old there own
      simp [noGroup]
    · simp [own]
  | false =>
    refine linked_deleted linked there noGroup (fun r => ?_) (fun c => by simp [unlinkChannelMaybe,
      marked, noGroup, Db.hasUsername, Db.updateChannel]) (by simp [unlinkChannelMaybe, marked,
      noGroup, Db.updateChannel])
    simp only [unlinkChannelMaybe, marked, noGroup, Bool.false_eq_true, if_false,
      Db.updateChannel, Table.mem_modify, decide_eq_true_eq]
    refine exists_congr fun s => and_congr_right fun old => ?_
    rw [deletedRow]
    by_cases own : s.id = c.id
    · simp [own]
    · have free : s.discussionId ≠ some c.id := fun link =>
        linked.not_links there marked s.id (links_of_mem old link)
      simp [own, free]

/-! #### A new owner -/

private theorem linked_editCreator (linked : db.Linked) {r : EditCreator}
    (safe : Safe db (.editCreator user r)) (done : editCreator db user r = .ok after) :
    after.Linked := by
  simp only [editCreator, orRaise_bind_eq_ok, bind_eq_ok r.target, check_bind_eq_ok, require_eq_ok,
    beq_iff_eq, bne_iff_ne, Except.ok.injEq] at done
  obtain ⟨c, found, creator, _, present, password, target, named, other, _, member, rfl⟩ := done
  obtain ⟨free, noGroup⟩ := safe c target found creator (by simp [present]) password named other
    (by simp [member])
  simp only [unlinkChannelMaybe, free, noGroup, Bool.false_eq_true, if_false]
  have profiles := linked_modify linked (fun d => decide (d.id = c.id))
    (fun d => { d with creatorId := target, version := c.version + 1 }) (fun _ => rfl) fun _ => rfl
  exact linked_congr profiles rfl (fun _ => rfl) rfl

/-! #### A new username -/

/-- A row after the channel that links to it has got a username, or lost it. -/
private def shownRow (channel : Channel) (flag : Bool) (row : Channel) : Channel :=
  if channel.discussionId = some row.id then { row with nojoinAllowView := flag } else row

private theorem profile_shownRow (channel : Channel) (flag : Bool) (row : Channel) :
    profile (shownRow channel flag row) = (row.id, row.deleted, row.discussionId, row.isDiscussion,
      if channel.discussionId = some row.id then flag else row.nojoinAllowView) := by
  unfold shownRow
  split_ifs <;> rfl

private def shownProfile (group : ChannelId) (flag : Bool)
    (p : ChannelId × Bool × Option ChannelId × Bool × Bool) :
    ChannelId × Bool × Option ChannelId × Bool × Bool :=
  (p.1, p.2.1, p.2.2.1, p.2.2.2.1, if decide (p.1 = group) && p.2.2.2.1 then flag else p.2.2.2.2)

private theorem profile_shown (group : ChannelId) (flag : Bool) (c : Channel) :
    profile (if decide (c.id = group) && c.isDiscussion then
      { c with nojoinAllowView := flag, version := c.version + 1 } else c) =
        shownProfile group flag (profile c) := by
  by_cases same : c.id = group <;> cases marked : c.isDiscussion <;>
    simp [profile, shownProfile, same, marked]

private theorem linked_shown (linked : db.Linked) (there : channel ∈ db.channels) (flag : Bool)
    (rows : after.channels.rows.map profile =
      (db.channels.rows.map (shownRow channel flag)).map profile)
    (names : ∀ c, after.hasUsername c = if c = channel.id then flag else db.hasUsername c)
    (nextId : after.nextId = db.nextId) : after.Linked := by
  have back {r : Channel} (here : r ∈ after.channels) :
      ∃ s ∈ db.channels, s.id = r.id ∧ s.deleted = r.deleted ∧ s.discussionId = r.discussionId ∧
        s.isDiscussion = r.isDiscussion ∧ r.nojoinAllowView =
          if channel.discussionId = some s.id then flag else s.nojoinAllowView := by
    obtain ⟨t, mem, same⟩ := exists_profile rows here
    obtain ⟨s, old, rfl⟩ := List.mem_map.mp mem
    rw [profile_shownRow] at same
    simp only [profile, Prod.mk.injEq] at same
    exact ⟨s, old, same.1, same.2.1, same.2.2.1, same.2.2.2.1, same.2.2.2.2.symm⟩
  have forth {s : Channel} (old : s ∈ db.channels) :
      ∃ r ∈ after.channels, r.id = s.id ∧ r.deleted = s.deleted ∧
        r.discussionId = s.discussionId ∧ r.isDiscussion = s.isDiscussion := by
    obtain ⟨r, here, same⟩ := exists_profile rows.symm
      (List.mem_map_of_mem (f := shownRow channel flag) old)
    rw [profile_shownRow] at same
    simp only [profile, Prod.mk.injEq] at same
    exact ⟨r, here, same.1, same.2.1, same.2.2.1, same.2.2.2.1⟩
  have links {c k : ChannelId} : after.Links c k ↔ db.Links c k := by
    constructor
    · rintro ⟨r, here, rfl, link⟩
      obtain ⟨s, old, id, _, same, _⟩ := back here
      exact ⟨s, old, id, same.trans link⟩
    · rintro ⟨s, old, rfl, link⟩
      obtain ⟨r, here, id, _, same, _⟩ := forth old
      exact ⟨r, here, id, same.trans link⟩
  refine ⟨?_, ?_, ?_, ?_, ?_, ?_⟩
  · intro c here
    obtain ⟨s, old, id, _⟩ := back here
    rw [← id, nextId]
    exact linked.fresh s old
  · intro c here link
    obtain ⟨s, old, _, deleted, same, _⟩ := back here
    rw [← deleted]
    exact linked.live s old (by rwa [same])
  · intro c g link
    obtain ⟨s, old, rfl, alive, marked, ends⟩ := linked.target c g (links.mp link)
    obtain ⟨r, here, id, deleted, same, isDiscussion⟩ := forth old
    exact ⟨r, here, id, deleted.trans alive, isDiscussion.trans marked, same.trans ends⟩
  · intro c d g first second
    exact linked.once c d g (links.mp first) (links.mp second)
  · intro g here alive marked
    obtain ⟨s, old, id, deleted, _, isDiscussion, _⟩ := back here
    obtain ⟨c, link⟩ := linked.marked s old (deleted.trans alive) (isDiscussion.trans marked)
    exact ⟨c, links.mpr (id ▸ link)⟩
  · intro g here alive
    obtain ⟨s, old, id, deleted, _, _, shows⟩ := back here
    simp only [links, names, shows, ← id]
    by_cases link : channel.discussionId = some s.id
    · rw [if_pos link]
      have first := links_of_mem there link
      constructor
      · intro named
        exact ⟨channel.id, first, by rw [if_pos rfl, named]⟩
      · rintro ⟨c, second, named⟩
        obtain rfl := linked.once c channel.id s.id second first
        rwa [if_pos rfl] at named
    · rw [if_neg link, linked.shown s old (deleted.trans alive)]
      refine exists_congr fun c => and_congr_right fun second => ?_
      have other : c ≠ channel.id := by
        rintro rfl
        exact link ((links_iff there).mp second)
      rw [if_neg other]

private theorem hasUsername_putUsername (db : Db) (id : ChannelId) (username : String)
    (modified : username = "" → db.hasUsername id = true) (c : ChannelId) :
    (db.putUsername id username).hasUsername c =
      if c = id then username != "" else db.hasUsername c := by
  unfold Db.putUsername
  by_cases has : db.hasUsername id = true
  · rw [if_pos has]
    by_cases empty : username = ""
    · rw [if_pos empty, empty]
      by_cases own : c = id
      · rw [if_pos own, own]
        simp [Db.hasUsername, List.any_filter]
      · rw [if_neg own]
        simp only [Db.hasUsername, List.any_filter]
        refine List.any_congr rfl fun u => ?_
        by_cases same : u.channelId = c
        · simp [same, own]
        · simp [same]
    · rw [if_neg empty]
      have kept : (db.usernames.map fun u =>
          if u.channelId = id then { u with username := username } else u).any
            (fun u => u.channelId == c) = db.usernames.any fun u => u.channelId == c := by
        rw [List.any_map]
        refine List.any_congr rfl fun u => ?_
        by_cases same : u.channelId = id <;> simp [same]
      by_cases own : c = id
      · subst own
        have named : (username != "") = true := bne_iff_ne.mpr empty
        rw [if_pos rfl, named]
        exact kept.trans has
      · rw [if_neg own]
        exact kept
  · rw [if_neg has]
    have named : username ≠ "" := fun empty => has (modified empty)
    by_cases own : c = id
    · rw [if_pos own, own]
      simp [Db.hasUsername, named]
    · rw [if_neg own]
      simp [Db.hasUsername, Ne.symm own]

private theorem profiles_updateChannel {change : Channel → Channel} (id : ChannelId)
    (keeps : ∀ c, (change c).id = c.id) (same : ∀ c, profile (change c) = profile c) :
    (db.updateChannel id change keeps).channels.rows.map profile =
      db.channels.rows.map profile := by
  simp only [Db.updateChannel, Table.modify, List.map_map]
  refine List.map_congr_left fun c _ => ?_
  rw [Function.comp_apply]
  split_ifs
  · exact same c
  · rfl

private theorem linked_updateUsername (linked : db.Linked) {r : UpdateUsername}
    (done : updateUsername db user r = .ok after) : after.Linked := by
  simp only [updateUsername, bind_eq_ok r.channel, orRaise_bind_eq_ok, check_bind_eq_ok,
    require_eq_ok, Except.ok.injEq] at done
  obtain ⟨id, _, channel, found, _, changed, _, _, rfl⟩ := done
  obtain ⟨present, alive⟩ := Option.filter_eq_some_iff.mp found
  have there : channel ∈ db.channels := (Table.get_eq_some_iff.mp present).1
  have modified : r.username = "" → db.hasUsername channel.id = true := by
    intro empty
    rw [empty] at changed
    cases current : db.usernames.find? fun u => u.channelId == channel.id with
    | none => simp [current] at changed
    | some u =>
      have mine := List.find?_some current
      exact List.any_eq_true.mpr ⟨u, List.mem_of_find?_eq_some current, mine⟩
  have names := hasUsername_putUsername db channel.id r.username modified
  have channels : (db.putUsername channel.id r.username).channels = db.channels := by
    unfold Db.putUsername
    split_ifs <;> rfl
  have nextId : (db.putUsername channel.id r.username).nextId = db.nextId := by
    unfold Db.putUsername
    split_ifs <;> rfl
  have marked (s : Channel) (old : s ∈ db.channels) (link : channel.discussionId = some s.id) :
      s.isDiscussion = true := by
    obtain ⟨t, here, same, _, isDiscussion, _⟩ := linked.target _ _ (links_of_mem there link)
    obtain rfl := Table.eq_of_key_eq here old same
    exact isDiscussion
  have shown : (if r.username ≠ "" ∧ channel.hiddenPrehistory = true then
      (db.putUsername channel.id r.username).updateChannel channel.id
        (fun c => { c with hiddenPrehistory := false }) fun _ => rfl
      else db.putUsername channel.id r.username).channels.rows.map profile =
        db.channels.rows.map profile := by
    split_ifs
    · refine (profiles_updateChannel channel.id _ ?_).trans (by rw [channels])
      exact fun _ => rfl
    · rw [channels]
  refine linked_shown linked there (r.username != "") ?_ ?_ ?_
  · refine (profiles_updateChannel channel.id _ ?_).trans ?_
    · exact fun _ => rfl
    cases link : channel.discussionId with
    | none =>
      rw [shown, List.map_map]
      refine List.map_congr_left fun s _ => ?_
      rw [Function.comp_apply, shownRow, link, if_neg (Option.some_ne_none s.id).symm]
    | some group =>
      have step (rows : List Channel) :
          (rows.map fun c => if (decide (c.id = group) && c.isDiscussion) = true then
            { c with nojoinAllowView := r.username != "", version := c.version + 1 } else c).map
              profile = (rows.map profile).map
                (shownProfile group (r.username != "")) := by
        rw [List.map_map, List.map_map]
        exact List.map_congr_left fun c _ => profile_shown group (r.username != "") c
      refine (step _).trans ?_
      rw [shown, List.map_map, List.map_map]
      refine List.map_congr_left fun s old => ?_
      have isDiscussion := marked s old
      rw [link] at isDiscussion
      rw [Function.comp_apply, Function.comp_apply, profile_shownRow, link]
      simp only [shownProfile, profile]
      by_cases same : s.id = group
      · subst same
        simp [isDiscussion rfl]
      · have apart : ¬ some group = some s.id := fun equal => same (Option.some.inj equal).symm
        simp [same, apart]
  · intro c
    rw [← names c]
    split_ifs <;> (cases channel.discussionId <;> rfl)
  · rw [← nextId]
    split_ifs <;> (cases channel.discussionId <;> rfl)

/-! ### Runs -/

private theorem linked_setDiscussionGroup (linked : db.Linked) {r : SetDiscussionGroup}
    (safe : Safe db (.setDiscussionGroup user r)) (done : setDiscussionGroup db user r = .ok after) :
    after.Linked := by
  rcases refused_or_linking db user r with ⟨_, _, refused⟩ | ⟨channel, group, linking⟩
  · rw [refused] at done
    cases done
  rw [linked.setDiscussionGroup_eq linking] at done
  cases done
  obtain ⟨there, alive⟩ := getFromInput_mem linking.found
  cases group with
  | none =>
    have link : channel.discussionId ≠ none := fun none => linking.modified none rfl
    refine linked_relinked linked there alive (linked.isDiscussion_false there alive link) ?_
    intro g same
    cases same
  | some g =>
    obtain ⟨apart, free, ends⟩ := safe channel g linking
    refine linked_relinked linked there alive free ?_
    rintro h same
    obtain rfl := Option.some.inj same
    rcases resolveGroup_eq_ok.mp linking.resolved with ⟨_, none⟩ |
      ⟨_, k, _, equal, found, _, _, unmarked, _, new⟩
    · cases none
    obtain rfl := Option.some.inj equal
    obtain ⟨groupThere, groupAlive⟩ := getFromInput_mem found
    exact ⟨groupThere, groupAlive, unmarked, ends, apart, new⟩

theorem linked_initial : Db.initial.Linked where
  fresh := fun c here => absurd here (Table.notMem_empty c)
  live := fun c here => absurd here (Table.notMem_empty c)
  target := fun _ _ ⟨r, here, _⟩ => absurd here (Table.notMem_empty r)
  once := fun _ _ _ ⟨r, here, _⟩ => absurd here (Table.notMem_empty r)
  marked := fun g here => absurd here (Table.notMem_empty g)
  shown := fun g here => absurd here (Table.notMem_empty g)

theorem linked_step (linked : db.Linked) {e : Event} (safe : Safe db e)
    (happens : step db e = some after) : after.Linked := by
  unfold step at happens
  cases done : handle db e with
  | error failure =>
    rw [done] at happens
    obtain rfl := Option.some.inj happens
    exact linked
  | ok result =>
    rw [done] at happens
    obtain rfl := Option.some.inj happens
    cases e with
    | createChannel user r =>
      simp only [handle, createChannel, check_bind_eq_ok, Except.ok.injEq] at done
      obtain ⟨_, _, _, _, _, _, _, _, rfl⟩ := done
      exact linked_createChannel linked _ _ rfl ⟨rfl, rfl, rfl⟩
    | setDiscussionGroup user r => exact linked_setDiscussionGroup linked safe done
    | deleteChannel user input => exact linked_deleteChannel linked safe done
    | editCreator user r => exact linked_editCreator linked safe done
    | updateUsername user r => exact linked_updateUsername linked done
    | participantsChange participants taken =>
      cases done
      exact linked_congr linked rfl (fun _ => rfl) rfl

/-- In a run of safe requests the discussion links are symmetric in every state. -/
theorem discussionsSymmetric_of_safe (es : List Event) (safe : StepsMeet step Safe Db.initial es) :
    HoldsAlong step Db.DiscussionsSymmetric Db.initial es :=
  holdsAlong_of_stepsMeet (fun _ linked => linked.symmetric)
    (fun _ _ _ linked safe happens => linked_step linked safe happens) linked_initial safe

/-- A plain creation request, for a broadcast channel or a group. -/
private def creation (broadcast : Bool) : CreateChannel where
  featureEnabled := true
  spamBlocked := false
  broadcast := broadcast
  megagroup := !broadcast
  titleLength := 4
  aboutLength := 0
  forum := false

private def linkRequest (channel group : Nat) : SetDiscussionGroup :=
  ⟨⟨channel, 0, false⟩, .channel ⟨group, 0, false⟩⟩

/-- A channel is linked to a group that is deleted later. -/
theorem discussionsSymmetric_of_link_and_delete :
    HoldsAlong step Db.DiscussionsSymmetric Db.initial
      [.createChannel 1 (creation true), .createChannel 1 (creation false),
        .setDiscussionGroup 1 (linkRequest 3 5), .deleteChannel 1 ⟨5, 0, false⟩] := by
  refine discussionsSymmetric_of_safe _ ?_
  refine (stepsMeet_cons rfl).mpr ⟨trivial, (stepsMeet_cons rfl).mpr ⟨trivial,
    (stepsMeet_cons rfl).mpr ⟨?_, (stepsMeet_cons rfl).mpr ⟨?_, trivial⟩⟩⟩⟩
  · intro channel g linking
    have found := linking.found
    obtain rfl : channel = newChannel 1 1 true false := Option.some.inj (found.symm.trans rfl)
    rcases resolveGroup_eq_ok.mp linking.resolved with ⟨none, _⟩ |
      ⟨i, h, request, same, foundGroup, _⟩
    · cases none
    · cases request
      obtain rfl := Option.some.inj same
      obtain rfl : g = newChannel 2 1 false true := Option.some.inj (foundGroup.symm.trans rfl)
      exact ⟨by decide, rfl, rfl⟩
  · intro c found _ _
    obtain rfl : c = { newChannel 2 1 false true with isDiscussion := true, version := 2 } :=
      Option.some.inj (found.symm.trans rfl)
    rfl

/-- After a linked channel is deleted, its group cannot be linked to another channel any more. -/
theorem deleted_channel_keeps_group :
    ¬ ∀ es, HoldsAlong step Db.DiscussionsSymmetric Db.initial es := by
  intro symmetric
  have stuck : ∃ db, runFrom step Db.initial
      [.createChannel 1 (creation true), .createChannel 1 (creation false),
        .setDiscussionGroup 1 (linkRequest 3 5), .deleteChannel 1 ⟨3, 0, false⟩,
        .createChannel 1 (creation true)] = some db ∧
      setDiscussionGroup db 1 (linkRequest 7 5) = .error .other := ⟨_, rfl, rfl⟩
  obtain ⟨db, run, failed⟩ := stuck
  exact (symmetric _ _ db (List.prefix_refl _) run).linkable 1 (linkRequest 7 5) failed

end Piltover.Channels
