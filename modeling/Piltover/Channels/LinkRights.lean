/- source: piltover/app/handlers/channels.py
   digest: What linking a discussion group changes, and exactly when only administrators do it. -/

import Piltover.Channels.Discussion

set_option autoImplicit false

namespace Piltover.Channels

open Piltover.Foundation
open Piltover.Foundation.Masks
open ChatBannedRights (viewMessages)
open ChatAdminRights (changeInfo)

/-! ### What linking changes -/

def relinkRow (db : Db) (channel : Channel) (group : Option Channel) (row : Channel) : Channel :=
  if row.id = channel.id then
    { row with discussionId := group.map Channel.id, version := row.version + 1 }
  else if channel.discussionId = some row.id then
    { row with isDiscussion := false, nojoinAllowView := false, version := row.version + 1 }
  else if group.map Channel.id = some row.id then
    { row with
      isDiscussion := true
      nojoinAllowView := db.hasUsername channel.id
      version := row.version + 1 }
  else row

theorem relinkRow_id (db : Db) (channel : Channel) (group : Option Channel) (row : Channel) :
    (relinkRow db channel group row).id = row.id := by
  unfold relinkRow
  split_ifs <;> rfl

/-- The tables after the channel was linked to the group, or unlinked. -/
def relinked (db : Db) (channel : Channel) (group : Option Channel) : Db :=
  { db with
    channels := db.channels.modify (fun _ => true) (relinkRow db channel group)
      (relinkRow_id db channel group) }

theorem mem_relinked {db : Db} {channel : Channel} {group : Option Channel} {r : Channel} :
    r ∈ (relinked db channel group).channels ↔
      ∃ s ∈ db.channels, relinkRow db channel group s = r := by
  simp only [relinked, Table.mem_modify, if_true]

def Db.linksOfOthers (db : Db) (id : ChannelId) : List ChannelId :=
  (db.channels.rows.filter fun c => decide (c.id ≠ id)).filterMap Channel.discussionId

variable {db after : Db} {user : UserId} {channel : Channel} {group : Option Channel}

theorem writeRow_channelsToUpdate (there : channel ∈ db.channels)
    (groupThere : ∀ g, group = some g → g ∈ db.channels) {row : Channel} (here : row ∈ db.channels) :
    writeRow (channelsToUpdate db channel group) row = relinkRow db channel group row := by
  unfold writeRow channelsToUpdate relinkRow
  by_cases own : row.id = channel.id
  · obtain rfl := Table.eq_of_key_eq here there own
    simp
  · have other : channel.id ≠ row.id := fun same => own same.symm
    rw [if_neg own]
    cases old : channel.discussionId.bind db.channels.get with
    | none =>
      have unlinked : channel.discussionId ≠ some row.id := by
        intro linked
        rw [linked, Option.bind_some, Table.get_eq_none_iff] at old
        exact old row here rfl
      rw [if_neg unlinked]
      cases group with
      | none => simp [other]
      | some g =>
        by_cases new : g.id = row.id
        · obtain rfl := Table.eq_of_key_eq (groupThere g rfl) here new
          simp [other]
        · simp [other, new]
    | some o =>
      obtain ⟨link, linked, found⟩ := Option.bind_eq_some_iff.mp old
      obtain ⟨oldThere, rfl⟩ := Table.get_eq_some_iff.mp found
      by_cases same : o.id = row.id
      · obtain rfl := Table.eq_of_key_eq oldThere here same
        simp [other, linked]
      · have apart : channel.discussionId ≠ some row.id := by
          rw [linked]
          exact fun equal => same (Option.some.inj equal)
        rw [if_neg apart]
        cases group with
        | none => simp [other, same]
        | some g =>
          by_cases new : g.id = row.id
          · obtain rfl := Table.eq_of_key_eq (groupThere g rfl) here new
            simp [other, same]
          · simp [other, same, new]

theorem discussionId_relinkRow (row : Channel) :
    (relinkRow db channel group row).discussionId =
      if row.id = channel.id then group.map Channel.id else row.discussionId := by
  unfold relinkRow
  split_ifs <;> rfl

private theorem links_relinked_perm {rows : List Channel} (there : channel ∈ rows)
    (unique : (rows.map Channel.id).Nodup) :
    ((rows.map (relinkRow db channel group)).filterMap Channel.discussionId).Perm
      ((rows.filter fun c => decide (c.id ≠ channel.id)).filterMap Channel.discussionId ++
        (group.map Channel.id).toList) := by
  have links (l : List Channel) (absent : ∀ c ∈ l, c.id ≠ channel.id) :
      (l.map (relinkRow db channel group)).filterMap Channel.discussionId =
        (l.filter fun c => decide (c.id ≠ channel.id)).filterMap Channel.discussionId := by
    rw [List.filter_eq_self.mpr fun c mem => decide_eq_true (absent c mem), List.filterMap_map]
    refine List.filterMap_congr fun c mem => ?_
    rw [Function.comp_apply, discussionId_relinkRow, if_neg (absent c mem)]
  obtain ⟨before, later, rfl⟩ := List.append_of_mem there
  rw [List.map_append, List.map_cons, List.nodup_append] at unique
  obtain ⟨_, tail, apart⟩ := unique
  have first := links before fun c mem =>
    apart c.id (List.mem_map_of_mem mem) channel.id List.mem_cons_self
  have second := links later fun c mem same =>
    (List.nodup_cons.mp tail).1 (same ▸ List.mem_map_of_mem mem)
  have own : (relinkRow db channel group channel).discussionId = group.map Channel.id := by
    rw [discussionId_relinkRow, if_pos rfl]
  have dropped : decide (channel.id ≠ channel.id) = false := by simp
  rw [List.map_append, List.map_cons, List.filterMap_append, first, List.filter_append,
    List.filter_cons, dropped, List.filterMap_append]
  have mine : (relinkRow db channel group channel ::
      later.map (relinkRow db channel group)).filterMap Channel.discussionId =
        (group.map Channel.id).toList ++
          (later.filter fun c => decide (c.id ≠ channel.id)).filterMap Channel.discussionId := by
    rw [← second, List.filterMap_cons, own]
    cases group <;> rfl
  rw [mine, List.append_assoc]
  exact List.Perm.append_left _ List.perm_append_comm

theorem bulkUpdate_channelsToUpdate (there : channel ∈ db.channels)
    (groupThere : ∀ g, group = some g → g ∈ db.channels) :
    db.bulkUpdate (channelsToUpdate db channel group) =
      if (db.linksOfOthers channel.id ++ (group.map Channel.id).toList).Nodup then
        .ok (relinked db channel group)
      else .error .other := by
  have same : db.channels.modify (fun _ => true) (writeRow (channelsToUpdate db channel group))
        (writeRow_id _) =
      db.channels.modify (fun _ => true) (relinkRow db channel group)
        (relinkRow_id db channel group) := by
    unfold Table.modify
    congr 1
    refine List.map_congr_left fun row here => ?_
    rw [if_pos rfl, if_pos rfl, writeRow_channelsToUpdate there groupThere here]
  unfold Db.bulkUpdate
  simp only [same]
  have rows : (db.channels.modify (fun _ => true) (relinkRow db channel group)
      (relinkRow_id db channel group)).rows = db.channels.rows.map (relinkRow db channel group) := by
    simp [Table.modify]
  simp only [rows]
  exact if_congr (links_relinked_perm there db.channels.unique).nodup_iff rfl rfl

theorem getFromInput_mem {input : InputChannel} {c : Channel}
    (found : db.getFromInput user input = some c) : c ∈ db.channels ∧ c.deleted = false := by
  obtain ⟨present, fits⟩ := Option.filter_eq_some_iff.mp found
  rw [Bool.and_eq_true, Bool.not_eq_true'] at fits
  exact ⟨(Table.get_eq_some_iff.mp present).1, fits.1⟩

structure Linking (db : Db) (user : UserId) (r : SetDiscussionGroup) (channel : Channel)
    (group : Option Channel) : Prop where
  found : db.getFromInput user r.broadcast = some channel
  rights : db.checkLinkRights channel user = .ok ()
  resolved : db.resolveGroup user channel r.group = .ok group
  modified : channel.discussionId = none → group ≠ none

theorem resolveGroup_eq_ok {input : InputGroup} :
    db.resolveGroup user channel input = .ok group ↔
      (input = .empty ∧ group = none) ∨
      ∃ i g, input = .channel i ∧ group = some g ∧ db.getFromInput user i = some g ∧
        db.checkLinkRights g user = .ok () ∧ g.supergroup = true ∧ g.isDiscussion = false ∧
        g.hiddenPrehistory = false ∧ channel.discussionId ≠ some g.id := by
  cases input with
  | empty =>
    simp only [Db.resolveGroup, Except.ok.injEq, reduceCtorEq, true_and, false_and,
      exists_false, or_false]
    exact eq_comm
  | other => simp [Db.resolveGroup]
  | channel i =>
    rw [Db.resolveGroup, bind_eq_ok]
    simp only [orRaise_eq_ok, check_bind_eq_ok, require_eq_ok, Bool.and_eq_true,
      Bool.not_eq_true', decide_eq_true_eq, Except.ok.injEq, reduceCtorEq, false_and, false_or,
      InputGroup.channel.injEq]
    constructor
    · rintro ⟨g, found, rights, ⟨supergroup, free⟩, shown, other, rfl⟩
      exact ⟨i, g, rfl, rfl, found, rights, supergroup, free, shown, Ne.symm other⟩
    · rintro ⟨_, g, rfl, rfl, found, rights, supergroup, free, shown, other⟩
      exact ⟨g, found, rights, ⟨supergroup, free⟩, shown, Ne.symm other, rfl⟩

theorem Linking.groupThere {r : SetDiscussionGroup} (linking : Linking db user r channel group) :
    ∀ g, group = some g → g ∈ db.channels := by
  rintro g rfl
  rcases resolveGroup_eq_ok.mp linking.resolved with ⟨_, none⟩ | ⟨i, h, _, same, found, _⟩
  · cases none
  · obtain rfl := Option.some.inj same
    exact (getFromInput_mem found).1

theorem setDiscussionGroup_eq {r : SetDiscussionGroup}
    (linking : Linking db user r channel group) :
    setDiscussionGroup db user r = db.bulkUpdate (channelsToUpdate db channel group) := by
  have changed : (!(channel.discussionId.isNone && group.isNone)) = true := by
    cases link : channel.discussionId with
    | some => rfl
    | none =>
      obtain ⟨g, rfl⟩ := Option.ne_none_iff_exists'.mp (linking.modified link)
      rfl
  have other : (group.all fun g => decide (channel.discussionId ≠ some g.id)) = true := by
    rcases resolveGroup_eq_ok.mp linking.resolved with ⟨_, rfl⟩ | ⟨_, g, _, rfl, _, _, _, _, _, new⟩
    · rfl
    · exact decide_eq_true new
  have found := linking.found
  have rights := linking.rights
  have resolved := linking.resolved
  simp only [setDiscussionGroup, found, orRaise, rights, resolved, bind, Except.bind, require,
    changed, other, if_true]

theorem settles_checkLinkRights (db : Db) (user : UserId) (c : Channel) :
    Settles (db.checkLinkRights c user) :=
  settles_bind (settles_orRaise _ _ _) fun _ => settles_require _ _ _

theorem settles_resolveGroup (db : Db) (user : UserId) (channel : Channel) (input : InputGroup) :
    Settles (db.resolveGroup user channel input) := by
  cases input with
  | empty => exact .inr ⟨none, rfl⟩
  | other => exact .inl ⟨400, _, rfl⟩
  | channel i =>
    refine settles_bind (settles_orRaise _ _ _) fun g => ?_
    refine settles_bind (settles_checkLinkRights db user g) fun _ => ?_
    refine settles_bind (settles_require _ _ _) fun _ => ?_
    refine settles_bind (settles_require _ _ _) fun _ => ?_
    exact settles_bind (settles_require _ _ _) fun _ => .inr ⟨some g, rfl⟩

theorem refused_or_linking (db : Db) (user : UserId) (r : SetDiscussionGroup) :
    (∃ code message, setDiscussionGroup db user r = .error (.rpc code message)) ∨
      ∃ channel group, Linking db user r channel group := by
  rcases settles_orRaise (db.getFromInput user r.broadcast) 400 "BROADCAST_ID_INVALID" with
    ⟨code, message, raised⟩ | ⟨channel, found⟩
  · exact .inl ⟨code, message, by simp [setDiscussionGroup, raised, bind, Except.bind]⟩
  rcases settles_checkLinkRights db user channel with
    ⟨code, message, raised⟩ | ⟨_, rights⟩
  · exact .inl ⟨code, message, by simp [setDiscussionGroup, found, raised, bind, Except.bind]⟩
  rcases settles_resolveGroup db user channel r.group with
    ⟨code, message, raised⟩ | ⟨group, resolved⟩
  · exact .inl ⟨code, message, by
      simp [setDiscussionGroup, found, rights, raised, bind, Except.bind]⟩
  by_cases modified : channel.discussionId = none → group ≠ none
  · exact .inr ⟨channel, group, orRaise_eq_ok.mp found, rights, resolved, modified⟩
  · push Not at modified
    obtain ⟨unlinked, rfl⟩ := modified
    exact .inl ⟨400, "LINK_NOT_MODIFIED", by
      simp [setDiscussionGroup, found, rights, resolved, unlinked, require, bind, Except.bind]⟩

/-! ### Who links -/

def Administers (db : Db) (user : UserId) (c : Channel) : Prop :=
  ∃ p, db.getParticipant c.id user = some p ∧
    (c.creatorId = user ∨ Within changeInfo p.adminRights)

/-- A request about a broadcast channel changes a channel row only if the user administers the
channel, and the group when there is one. -/
def LinkedByAdministrators (db : Db) (user : UserId) (r : SetDiscussionGroup) : Prop :=
  ∀ channel after, db.getFromInput user r.broadcast = some channel → channel.channel = true →
    setDiscussionGroup db user r = .ok after → after.channels.rows ≠ db.channels.rows →
      Administers db user channel ∧
        ∀ input g, r.group = .channel input → db.getFromInput user input = some g →
          Administers db user g

/-- When an administrator of a broadcast channel asks to link it to a free group in which he is an
ordinary member, a ban stops him, his own or the default one. -/
def MembersStopped (db : Db) (user : UserId) (r : SetDiscussionGroup) : Prop :=
  ∀ channel input g p, db.getFromInput user r.broadcast = some channel → channel.channel = true →
    Administers db user channel → r.group = .channel input → db.getFromInput user input = some g →
    g.supergroup = true → g.isDiscussion = false → g.hiddenPrehistory = false →
    channel.discussionId ≠ some g.id → (db.linksOfOthers channel.id ++ [g.id]).Nodup →
    db.getParticipant g.id user = some p → g.channel = false → g.creatorId ≠ user →
    ¬ Within changeInfo p.adminRights →
      ¬ Apart p.bannedRights viewMessages ∨ ¬ Apart g.bannedRights viewMessages

theorem getParticipant_userId {id : ChannelId} {p : ChatParticipant}
    (found : db.getParticipant id user = some p) : p.userId = user := by
  have fits := List.find?_some found
  rw [Bool.and_eq_true, beq_iff_eq] at fits
  exact fits.1

/-- `check_rights` for linking: in a broadcast channel only administrators pass, elsewhere members
do as well unless they may not see messages. -/
theorem checkLinkRights_iff {c : Channel} :
    db.checkLinkRights c user = .ok () ↔
      ∃ p, db.getParticipant c.id user = some p ∧ (c.creatorId = user ∨
        if c.channel = true then Within changeInfo p.adminRights
        else Apart p.bannedRights viewMessages ∧
          (Within changeInfo p.adminRights ∨ Apart c.bannedRights viewMessages)) := by
  unfold Db.checkLinkRights
  simp only [bind_eq_ok, orRaise_eq_ok, require_eq_ok,
    ChatOrChannel.checkRights_some_iff _ _ (show 0 < changeInfo by decide)]
  refine exists_congr fun p => and_congr_right fun found => ?_
  rw [getParticipant_userId found]

theorem checkLinkRights_broadcast_iff {c : Channel} (broadcast : c.channel = true) :
    db.checkLinkRights c user = .ok () ↔ Administers db user c := by
  simp only [checkLinkRights_iff, Administers, broadcast, if_true]

private theorem relinked_rows_ne (there : channel ∈ db.channels) :
    (relinked db channel group).channels.rows ≠ db.channels.rows := by
  intro same
  have image : relinkRow db channel group channel ∈ db.channels :=
    Table.mem_def.mpr (same ▸ mem_relinked.mpr ⟨channel, there, rfl⟩)
  have equal := Table.eq_of_key_eq image there (relinkRow_id db channel group channel)
  have version := congrArg Channel.version equal
  simp [relinkRow] at version

/-- Only administrators link groups exactly when every ordinary member of a free group is kept from
seeing its messages. -/
theorem linkedByAdministrators_iff (db : Db) (user : UserId) (r : SetDiscussionGroup) :
    LinkedByAdministrators db user r ↔ MembersStopped db user r := by
  constructor
  · intro only channel input g p found broadcast admin request foundGroup supergroup free shown new
      unique member notBroadcast stranger noRight
    by_contra unstopped
    push Not at unstopped
    have rights : db.checkLinkRights g user = .ok () := by
      refine checkLinkRights_iff.mpr ⟨p, member, .inr ?_⟩
      rw [notBroadcast]
      exact ⟨unstopped.1, .inr unstopped.2⟩
    have linking : Linking db user r channel (some g) :=
      { found
        rights := (checkLinkRights_broadcast_iff broadcast).mpr admin
        resolved := resolveGroup_eq_ok.mpr
          (.inr ⟨input, g, request, rfl, foundGroup, rights, supergroup, free, shown, new⟩)
        modified := fun _ => Option.some_ne_none g }
    have there := (getFromInput_mem found).1
    have written := setDiscussionGroup_eq linking
    rw [bulkUpdate_channelsToUpdate there linking.groupThere, Option.map_some, Option.toList_some,
      if_pos unique] at written
    have both := only channel _ found broadcast written (relinked_rows_ne there)
    obtain ⟨q, found', cause⟩ := both.2 input g request foundGroup
    obtain rfl : p = q := Option.some.inj (member.symm.trans found')
    exact cause.elim stranger noRight
  · intro stopped channel after found broadcast changed _
    rcases refused_or_linking db user r with ⟨_, _, refused⟩ | ⟨c, group, linking⟩
    · rw [refused] at changed
      cases changed
    obtain rfl : channel = c := Option.some.inj (found.symm.trans linking.found)
    have admin := (checkLinkRights_broadcast_iff broadcast).mp linking.rights
    refine ⟨admin, fun input g request foundGroup => ?_⟩
    rcases resolveGroup_eq_ok.mp linking.resolved with ⟨empty, _⟩ |
      ⟨i, h, request', rfl, foundGroup', rights, supergroup, free, shown, new⟩
    · rw [request] at empty
      cases empty
    rw [request] at request'
    cases request'
    obtain rfl : g = h := Option.some.inj (foundGroup.symm.trans foundGroup')
    obtain ⟨p, member, cause⟩ := checkLinkRights_iff.mp rights
    refine ⟨p, member, ?_⟩
    by_contra neither
    push Not at neither
    obtain ⟨stranger, noRight⟩ := neither
    rcases cause with creator | cause
    · exact stranger creator
    cases groupBroadcast : g.channel with
    | true => exact noRight (by simpa [groupBroadcast] using cause)
    | false =>
      have unbanned : Apart p.bannedRights viewMessages ∧
          (Within changeInfo p.adminRights ∨ Apart g.bannedRights viewMessages) := by
        simpa [groupBroadcast] using cause
      have unique : (db.linksOfOthers channel.id ++ [g.id]).Nodup := by
        by_contra taken
        rw [setDiscussionGroup_eq linking, bulkUpdate_channelsToUpdate
          (getFromInput_mem found).1 linking.groupThere, Option.map_some, Option.toList_some,
          if_neg taken] at changed
        cases changed
      rcases stopped channel input g p found broadcast admin request foundGroup supergroup free
        shown new unique member groupBroadcast stranger noRight with banned | banned
      · exact banned unbanned.1
      · exact banned (unbanned.2.resolve_left noRight)

/-- A broadcast channel of user 2 with a username, and a private group of user 1 that user 2 has
joined. -/
private def channelAndGroup : Db where
  channels := ⟨[newChannel 1 2 true false, newChannel 2 1 false true], by decide⟩
  usernames := [⟨"news", 1⟩]
  taken := []
  participants := [(1, ⟨2, 0, ChatAdminRights.creatorRights, false⟩),
    (2, ⟨1, 0, ChatAdminRights.creatorRights, false⟩), (2, ⟨2, 0, 0, false⟩)]
  nextId := 3

private def linkForeignGroup : SetDiscussionGroup := ⟨⟨3, 0, false⟩, .channel ⟨5, 0, false⟩⟩

/-- An ordinary member links a private group of somebody else to his own channel, and the group
becomes visible to everybody. -/
theorem member_exposes_group :
    (∃ after g, setDiscussionGroup channelAndGroup 2 linkForeignGroup = .ok after ∧
      g ∈ after.channels ∧ g.id = 2 ∧ g.nojoinAllowView = true) ∧
    ¬ ∀ db user r, LinkedByAdministrators db user r := by
  have linked : ∃ after, setDiscussionGroup channelAndGroup 2 linkForeignGroup = .ok after ∧
      after.channels.rows = [{ newChannel 1 2 true false with discussionId := some 2, version := 2 },
        { newChannel 2 1 false true with
          isDiscussion := true, nojoinAllowView := true, version := 2 }] :=
    ⟨_, rfl, rfl⟩
  obtain ⟨after, written, rows⟩ := linked
  refine ⟨⟨after, { newChannel 2 1 false true with
      isDiscussion := true, nojoinAllowView := true, version := 2 }, written,
    Table.mem_def.mpr ?_, rfl, rfl⟩, fun only => ?_⟩
  · rw [rows]
    exact List.mem_cons_of_mem _ List.mem_cons_self
  · have changed : after.channels.rows ≠ channelAndGroup.channels.rows := by
      rw [rows]
      decide
    obtain ⟨p, member, cause⟩ := (only channelAndGroup 2 linkForeignGroup (newChannel 1 2 true false)
      after rfl rfl written changed).2 ⟨5, 0, false⟩ (newChannel 2 1 false true) rfl rfl
    obtain rfl : (⟨2, 0, 0, false⟩ : ChatParticipant) = p := Option.some.inj member
    exact absurd cause (by decide)

end Piltover.Channels
