/- source: piltover/db/models/message_content.py, piltover/db/models/message_related.py,
     piltover/utils/users_chats_channels.py, piltover/app/handlers/messages/sending.py
   digest: When everyone that a message mentions is related to it. -/

import Piltover.Contents.Related
import Piltover.Foundation.Runs

set_option autoImplicit false

namespace Piltover.Contents.Related

open Piltover.Foundation
open Piltover.Foundation.Runs

/-- A message for the peer names somebody beside its action: as its peer or a party of it, its
author, the channel it is sent as, its bot, in an entity or in its header. -/
def Beside (content : MessageContent) (peer : Peer) : Named → Prop
  | .user u => peer.userId = some u ∨ peer.ownerId = some u ∨
      (content.channelPost = false ∧ content.anonymous = false ∧ u ≠ 0 ∧
        ∃ author, content.author = some author ∧ author.id = u) ∨
      .mentionName u ∈ content.entities ∨ content.viaBot = some u ∨
      ∃ header, content.fwdHeader = some header ∧ (header.fromUser = some u ∨
        header.savedFrom = some u ∨
          ∃ saved, header.savedPeer = some saved ∧ (saved.userId = some u ∨ saved.ownerId = some u))
  | .chat c => peer.chatId = some c ∨ ∃ header, content.fwdHeader = some header ∧
      (header.fromChat = some c ∨ ∃ saved, header.savedPeer = some saved ∧ saved.chatId = some c)
  | .channel c => peer.channelId = some c ∨ content.sendAsChannelId = some c ∨
      ∃ header, content.fwdHeader = some header ∧ (header.fromChannel = some c ∨
        ∃ saved, header.savedPeer = some saved ∧ saved.channelId = some c)

namespace Db

variable (db : Db)

def RelatedTo (m : Message) : Prop :=
  ∀ id ∈ m.mentions, id ∈ db.existing →
    (m.content.id, id) ∈ db.related ∧ id ∈ db.resolve [m.content.id]

def AllRelated : Prop := ∀ m ∈ db.messages, db.RelatedTo m

/-- When a step keeps all messages related: nobody is new whom a message mentions already, an action
of a type that is not read names only who is named beside it, and an edit mentions only who is
related to the message. -/
def Keeps : Event → Prop
  | .add row => row ≠ .user 0 → row ∉ db.existing → ∀ m ∈ db.messages, row ∉ m.mentions
  | .createForPeer peer content named => content.isService = true →
      readsAction content.type = false →
        ∀ id ∈ (⟨content, peer, named⟩ : Message).actionMentions, id ∈ db.existing →
          Beside content peer id
  | .edit contentId e => ∀ m, db.messages.get contentId = some m → m.content.accepts e = true →
      ∀ text, e.text = some text → ∀ id ∈ text.2.flatMap Entity.mentions, id ∈ db.existing →
        (contentId, id) ∈ db.related
  | _ => True

structure Formed : Prop where
  zero : .user 0 ∉ db.existing
  rows : ∀ row ∈ db.related, row.1 < db.nextContent ∧ row.2 ∈ db.existing
  messages : ∀ m ∈ db.messages, m.content.id < db.nextContent

end Db

/-! ### Formatting and filling -/

section Filling

variable {m : Message} {content : MessageContent} {peer : Peer} {id : Named} {names : List Named}

theorem mem_fillRelated : id ∈ peer.fillRelated ↔ (∃ u, peer.userId = some u ∧ .user u = id) ∨
    (∃ u, peer.ownerId = some u ∧ .user u = id) ∨ (∃ c, peer.chatId = some c ∧ .chat c = id) ∨
      ∃ c, peer.channelId = some c ∧ .channel c = id := by
  simp only [Peer.fillRelated, List.mem_append, Option.mem_toList, Option.map_eq_some_iff]

theorem toTl_fillRelated (named : peer.toTl = some id) : id ∈ peer.fillRelated := by
  rw [mem_fillRelated]
  unfold Peer.toTl at named
  split at named
  · obtain ⟨owner, owned, rfl⟩ := Option.map_eq_some_iff.mp named
    exact .inr (.inl ⟨owner, owned, rfl⟩)
  · rename_i userId target
    exact .inl ⟨userId, by rw [Peer.userId, target], Option.some.inj named⟩
  · rename_i c target
    exact .inr (.inr (.inl ⟨c.id, by rw [Peer.chatId, target], Option.some.inj named⟩))
  · rename_i c target
    have channel : peer.channelId = some c.id := by
      rw [Peer.channelId, Peer.channel, target]
      rfl
    exact .inr (.inr (.inr ⟨c.id, channel, Option.some.inj named⟩))

theorem mentions_fillRelated (mentioned : id ∈ peer.mentions) : id ∈ peer.fillRelated := by
  rcases List.mem_append.mp mentioned with own | other
  · exact toTl_fillRelated (Option.mem_toList.mp own)
  · split at other
    · exact List.mem_append_right _ (List.mem_append_left _ other)
    · cases other

theorem header_fillRelated {header : MessageFwdHeader} (mentioned : id ∈ header.mentions) :
    id ∈ header.fillRelated := by
  simp only [MessageFwdHeader.fillRelated, List.mem_append, Option.mem_toList, List.mem_flatMap]
  rcases List.mem_append.mp mentioned with origin | saved
  · have named := Option.mem_toList.mp origin
    rw [MessageFwdHeader.fromId, Option.or_eq_some_iff] at named
    rcases named with user | ⟨-, rest⟩
    · exact .inl user
    · rcases Option.or_eq_some_iff.mp rest with chat | ⟨-, channel⟩
      · exact .inr (.inl chat)
      · exact .inr (.inr (.inl channel))
  · rcases List.mem_append.mp saved with place | author
    · have named := Option.mem_toList.mp place
      unfold MessageFwdHeader.savedFromPeer at named
      split at named
      · obtain ⟨peer, known, shown⟩ := Option.bind_eq_some_iff.mp named
        exact .inr (.inr (.inr (.inl ⟨peer, known, toTl_fillRelated shown⟩)))
      · cases named
    · have named := Option.mem_toList.mp author
      rw [MessageFwdHeader.savedFromId, Option.map_eq_some_iff] at named
      obtain ⟨user, known, rfl⟩ := named
      have kept := (Option.filter_eq_some_iff.mp known).1
      refine .inr (.inr (.inr (.inr ?_)))
      rw [kept]
      rfl

theorem fillRelated_eq_ok : content.fillRelated peer = .ok names ↔
    ∃ action, content.fillAction = .ok action ∧
      peer.fillRelated ++ (content.fillAuthor ++ ((content.sendAsChannelId.map .channel).toList ++
        (action ++ (content.entities.flatMap Entity.mentions ++
          (content.fwdHeader.toList.flatMap MessageFwdHeader.fillRelated ++
            (content.viaBot.map Named.user).toList))))) = names :=
  map_eq_ok

theorem mem_fill : id ∈ peer.fillRelated ++ (content.fillAuthor ++
    ((content.sendAsChannelId.map Named.channel).toList ++
      (content.entities.flatMap Entity.mentions ++
        (content.fwdHeader.toList.flatMap MessageFwdHeader.fillRelated ++
          (content.viaBot.map Named.user).toList)))) ↔ Beside content peer id := by
  have author : id ∈ content.fillAuthor ↔ content.channelPost = false ∧
      content.anonymous = false ∧ ∃ a, content.author = some a ∧ a.id ≠ 0 ∧ .user a.id = id := by
    unfold MessageContent.fillAuthor
    cases content.channelPost <;> cases content.anonymous <;> cases content.author <;>
      simp [Option.filter_some]
  have entity : ∀ e : Entity, id ∈ e.mentions ↔ ∃ u, e = .mentionName u ∧ id = .user u := by
    intro e
    cases e with
    | mentionName u => simp [Entity.mentions]
    | other tag => simp [Entity.mentions]
  simp only [List.mem_append, author, List.mem_flatMap, entity, MessageFwdHeader.fillRelated,
    mem_fillRelated, Option.mem_toList, Option.map_eq_some_iff]
  cases id with
  | user id =>
    simp [Beside]
    grind
  | chat id => simp [Beside]
  | channel id => simp [Beside]

theorem fillAction_of_not_reads (unread : readsAction content.type = false) :
    content.fillAction = .ok [] := by
  unfold MessageContent.fillAction
  revert unread
  cases content.type <;> first | exact fun _ => rfl | exact nofun

theorem fillAction_of_reads (reads : readsAction m.content.type = true) {action : List Named}
    (filled : m.content.fillAction = .ok action) : ∀ id ∈ m.actionMentions, id ∈ action := by
  unfold MessageContent.fillAction at filled
  unfold Message.actionMentions
  split at filled <;> cases filled <;> simp_all [Action.mentions, readsAction]

theorem mem_names (filled : content.fillRelated peer = .ok names) : id ∈ names ↔
    Beside content peer id ∨ ∃ action, content.fillAction = .ok action ∧ id ∈ action := by
  obtain ⟨action, acted, rfl⟩ := fillRelated_eq_ok.mp filled
  rw [← mem_fill, acted]
  simp only [List.mem_append, Except.ok.injEq, exists_eq_left']
  tauto

theorem makeFromId_fillRelated (named : content.makeFromId = some id) :
    id ∈ content.fillAuthor ∨ id ∈ (content.sendAsChannelId.map Named.channel).toList ∨
      id = .user 0 := by
  unfold MessageContent.makeFromId at named
  split at named
  · rename_i channelId sentAs
    rw [sentAs, ← Option.some.inj named]
    exact .inr (.inl (List.mem_singleton_self _))
  · split at named
    · cases named
    · rename_i shown
      obtain ⟨author, known, rfl⟩ := Option.map_eq_some_iff.mp named
      by_cases zero : author.id = 0
      · exact .inr (.inr (congrArg Named.user zero))
      · refine .inl ?_
        have own : (!content.channelPost && !content.anonymous) = true := by
          rw [← Bool.not_or, Bool.not_eq_true', Bool.eq_false_iff]
          exact shown
        have kept : (content.author.map User.id).filter (· != 0) = some author.id := by
          rw [known]
          exact Option.filter_eq_some_iff.mpr ⟨rfl, bne_iff_ne.mpr zero⟩
        rw [MessageContent.fillAuthor, if_pos own, kept]
        exact List.mem_singleton_self _

theorem mem_of_mentions (filled : m.content.fillRelated m.peer = .ok names)
    (mentioned : id ∈ m.mentions) : id ∈ names ∨ id = .user 0 ∨
      (m.content.isService = true ∧ id ∈ m.actionMentions) := by
  obtain ⟨action, -, rfl⟩ := fillRelated_eq_ok.mp filled
  simp only [List.mem_append]
  rcases List.mem_append.mp mentioned with own | rest
  · exact .inl (.inl (mentions_fillRelated own))
  · rcases List.mem_append.mp rest with author | content
    · rcases makeFromId_fillRelated (Option.mem_toList.mp author) with author | sentAs | zero
      · exact .inl (.inr (.inl author))
      · exact .inl (.inr (.inr (.inl sentAs)))
      · exact .inr (.inl zero)
    · unfold Message.contentMentions at content
      split at content
      · rename_i service
        exact .inr (.inr ⟨service, content⟩)
      · refine .inl (.inr (.inr (.inr (.inr ?_))))
        rcases List.mem_append.mp content with entity | rest
        · exact .inl entity
        · rcases List.mem_append.mp rest with header | bot
          · obtain ⟨found, known, named⟩ := List.mem_flatMap.mp header
            exact .inr (.inl (List.mem_flatMap.mpr ⟨found, known, header_fillRelated named⟩))
          · exact .inr (.inr bot)

end Filling

/-! ### New messages -/

namespace Db

variable {db after : Db} {m : Message} {names : List Named} {id : Named}

theorem mem_related_addMessage {row : Nat × Named} : row ∈ (db.addMessage m names).related ↔
    row ∈ db.related ∨ (row.1 = m.content.id ∧ row.2 ∈ names ∧ row.2 ∈ db.existing) := by
  have added : (db.addMessage m names).related = db.related ++
      (names.dedup.filter db.existing.contains).map fun id => (m.content.id, id) := rfl
  rw [added, List.mem_append]
  refine or_congr Iff.rfl ?_
  simp only [List.mem_map, List.mem_filter, List.mem_dedup, List.contains_iff_mem]
  constructor
  · rintro ⟨id, both, rfl⟩
    exact ⟨rfl, both⟩
  · rintro ⟨same, both⟩
    exact ⟨row.2, both, Prod.ext same.symm rfl⟩

theorem Formed.mem_addMessage (formed : db.Formed) (fresh : db.nextContent ≤ m.content.id)
    {m' : Message} : m' ∈ (db.addMessage m names).messages ↔ m' ∈ db.messages ∨ m' = m := by
  refine Table.mem_insert (Table.get_eq_none_iff.mpr fun old here => ?_)
  have small := formed.messages old here
  omega

theorem Formed.addMessage (formed : db.Formed) (fresh : db.nextContent ≤ m.content.id) :
    (db.addMessage m names).Formed where
  zero := formed.zero
  rows row here := by
    rcases mem_related_addMessage.mp here with old | ⟨same, -, known⟩
    · have small := (formed.rows row old).1
      exact ⟨show row.1 < m.content.id + 1 by omega, (formed.rows row old).2⟩
    · exact ⟨show row.1 < m.content.id + 1 by omega, known⟩
  messages m' here := by
    rcases (formed.mem_addMessage fresh).mp here with old | rfl
    · have small := formed.messages m' old
      exact show m'.content.id < m.content.id + 1 by omega
    · exact Nat.lt_succ_self _

theorem mem_resolve {contentIds : List Nat} : id ∈ db.resolve contentIds ↔
    (∃ contentId ∈ contentIds, (contentId, id) ∈ db.related) ∧ id ∈ db.existing := by
  simp only [resolve, List.mem_filter, List.mem_map, List.contains_iff_mem]
  refine and_congr_left fun _ => ?_
  constructor
  · rintro ⟨row, ⟨here, listed⟩, rfl⟩
    exact ⟨row.1, listed, here⟩
  · rintro ⟨contentId, listed, here⟩
    exact ⟨(contentId, id), ⟨here, listed⟩, rfl⟩

theorem relatedTo_iff : db.RelatedTo m ↔
    ∀ id ∈ m.mentions, id ∈ db.existing → (m.content.id, id) ∈ db.related := by
  refine forall₂_congr fun id _ => forall_congr' fun known => ?_
  refine and_iff_left_of_imp fun here => ?_
  exact mem_resolve.mpr ⟨⟨m.content.id, List.mem_singleton_self _, here⟩, known⟩

theorem allRelated_addMessage_iff (formed : db.Formed) (fresh : db.nextContent ≤ m.content.id)
    (all : db.AllRelated) : (db.addMessage m names).AllRelated ↔
      ∀ id ∈ m.mentions, id ∈ db.existing → id ∈ names := by
  constructor
  · intro related id mentioned known
    have here : m ∈ (db.addMessage m names).messages :=
      (formed.mem_addMessage fresh).mpr (.inr rfl)
    have row := relatedTo_iff.mp (related m here) id mentioned known
    rcases mem_related_addMessage.mp row with old | ⟨-, named, -⟩
    · have small : m.content.id < db.nextContent := (formed.rows _ old).1
      omega
    · exact named
  · intro named m' here
    rw [relatedTo_iff]
    intro id mentioned known
    rcases (formed.mem_addMessage fresh).mp here with old | rfl
    · exact mem_related_addMessage.mpr (.inl (relatedTo_iff.mp (all m' old) id mentioned known))
    · exact mem_related_addMessage.mpr (.inr ⟨rfl, named id mentioned known, known⟩)

structure Steps (db after : Db) (keeps : Prop) : Prop where
  formed : after.Formed
  related_iff : db.AllRelated → (after.AllRelated ↔ keeps)

theorem Steps.stay (formed : db.Formed) {keeps : Prop} (holds : keeps) : Steps db db keeps :=
  ⟨formed, fun all => iff_of_true all holds⟩

theorem store_eq_ok : db.store m = .ok after ↔
    ∃ names, m.content.fillRelated m.peer = .ok names ∧ db.addMessage m names = after :=
  map_eq_ok

theorem steps_store (formed : db.Formed) (fresh : db.nextContent ≤ m.content.id)
    (stored : db.store m = .ok after) : Steps db after (m.content.isService = true →
      readsAction m.content.type = false →
        ∀ id ∈ m.actionMentions, id ∈ db.existing → Beside m.content m.peer id) := by
  obtain ⟨names, filled, rfl⟩ := store_eq_ok.mp stored
  refine ⟨formed.addMessage fresh, fun all => ?_⟩
  rw [allRelated_addMessage_iff formed fresh all]
  constructor
  · intro named service unread id mentioned known
    have here : id ∈ names := by
      refine named id (List.mem_append_right _ (List.mem_append_right _ ?_)) known
      rw [Message.contentMentions, if_pos service]
      exact mentioned
    rcases (mem_names filled).mp here with beside | ⟨action, acted, listed⟩
    · exact beside
    · rw [fillAction_of_not_reads unread] at acted
      cases acted
      cases listed
  · intro named id mentioned known
    rcases mem_of_mentions filled mentioned with here | rfl | ⟨service, acted⟩
    · exact here
    · exact absurd known formed.zero
    · rw [mem_names filled]
      cases reads : readsAction m.content.type with
      | false => exact .inl (named service reads id acted known)
      | true =>
        obtain ⟨action, given, -⟩ := fillRelated_eq_ok.mp filled
        exact .inr ⟨action, given, fillAction_of_reads reads given id acted⟩

theorem steps_store_plain (formed : db.Formed) (fresh : db.nextContent ≤ m.content.id)
    (plain : m.content.extraInfo = none) (stored : db.store m = .ok after) :
    Steps db after True := by
  have steps := steps_store formed fresh stored
  refine ⟨steps.formed, fun all => iff_of_true ((steps.related_iff all).mpr ?_) trivial⟩
  intro _ _ id mentioned
  rw [Message.actionMentions, plain] at mentioned
  cases mentioned

variable {peer : Peer} {args : CloneForward} {now : Int}

theorem steps_createForPeer (formed : db.Formed) {content : MessageContent} {named : List Named}
    (created : db.createForPeer peer content named = .ok after) :
    Steps db after (db.Keeps (.createForPeer peer content named)) :=
  steps_store formed (Nat.le_refl db.nextContent) created

theorem mentions_cloneScheduled (scheduled : m.content.type = .scheduled) {n : Nat}
    (mentioned : id ∈ (⟨m.content.cloneScheduled n now, m.peer, []⟩ : Message).mentions) :
    id ∈ m.mentions := by
  have shown : m.contentMentions = m.content.entities.flatMap Entity.mentions ++
      ((m.content.fwdHeader.toList.flatMap MessageFwdHeader.mentions) ++
        (m.content.viaBot.map Named.user).toList) := by
    rw [Message.contentMentions, MessageContent.isService, scheduled]
    rfl
  have cloned : (⟨m.content.cloneScheduled n now, m.peer, []⟩ : Message).contentMentions =
      m.content.entities.flatMap Entity.mentions ++
        ((m.content.fwdHeader.toList.flatMap MessageFwdHeader.mentions) ++ []) := rfl
  rw [Message.mentions, cloned] at mentioned
  rw [Message.mentions, shown]
  simp only [List.mem_append] at mentioned ⊢
  rcases mentioned with peer | author | entity | header | none
  · exact .inl peer
  · exact .inr (.inl author)
  · exact .inr (.inr (.inl entity))
  · exact .inr (.inr (.inr (.inl header)))
  · cases none

theorem mem_getForMessage {contentId : Nat} :
    id ∈ db.getForMessage contentId ↔ (contentId, id) ∈ db.related := by
  simp only [getForMessage, List.mem_map, List.mem_filter, beq_iff_eq]
  constructor
  · rintro ⟨row, ⟨here, rfl⟩, rfl⟩
    exact here
  · exact fun here => ⟨(contentId, id), ⟨here, rfl⟩, rfl⟩

theorem steps_cloneScheduled (formed : db.Formed) (here : m ∈ db.messages)
    (scheduled : m.content.type = .scheduled) : Steps db (db.cloneScheduled m now) True := by
  have fresh : db.nextContent ≤
      (⟨m.content.cloneScheduled db.nextContent now, m.peer, []⟩ : Message).content.id :=
    Nat.le_refl _
  refine ⟨formed.addMessage fresh, fun all => iff_of_true ?_ trivial⟩
  refine (allRelated_addMessage_iff formed fresh all).mpr fun id mentioned known => ?_
  rw [mem_getForMessage]
  exact relatedTo_iff.mp (all m here) id (mentions_cloneScheduled scheduled mentioned) known

theorem clone_eq_ok {n : Nat} {content copy : MessageContent} {header : Option MessageFwdHeader}
    {info group : Option Nat} (cloned : args.clone n content header info group = .ok copy) :
    copy.id = n ∧ copy.extraInfo = none := by
  obtain ⟨hidden, -, rest⟩ := (bind_eq_ok _).mp cloned
  obtain ⟨post, -, made⟩ := (bind_eq_ok _).mp rest
  cases made
  exact ⟨rfl, rfl⟩

theorem steps_cloneForward (formed : db.Formed) {header : Option MessageFwdHeader}
    {info group : Option Nat} (cloned : db.cloneForward m peer args header info group = .ok after) :
    Steps db after True := by
  obtain ⟨copy, made, stored⟩ := (bind_eq_ok _).mp cloned
  obtain ⟨new, plain⟩ := clone_eq_ok made
  exact steps_store_plain formed (Nat.le_of_eq new.symm) plain stored

theorem cloneBulk_eq_ok {n : Nat} {contents copies : List MessageContent}
    {headers : List (Option MessageFwdHeader)} {infos groups : List (Option Nat)}
    (made : args.cloneBulk n contents headers infos groups = .ok copies) :
    copies.map MessageContent.id = List.range' n copies.length ∧
      ∀ copy ∈ copies, copy.extraInfo = none := by
  induction n, contents, headers, infos, groups using CloneForward.cloneBulk.induct
      generalizing copies with
  | case1 n content contents header headers info infos group groups ih =>
    rw [CloneForward.cloneBulk] at made
    obtain ⟨copy, first, rest⟩ := (bind_eq_ok _).mp made
    obtain ⟨others, later, joined⟩ := (bind_eq_ok _).mp rest
    cases joined
    obtain ⟨new, plain⟩ := clone_eq_ok first
    obtain ⟨ids, allPlain⟩ := ih later
    refine ⟨?_, fun copy' here => ?_⟩
    · rw [List.map_cons, List.length_cons, List.range'_succ, new, ids]
    · rcases List.mem_cons.mp here with rfl | other
      · exact plain
      · exact allPlain copy' other
  | case2 n contents headers infos groups short =>
    rw [CloneForward.cloneBulk] at made
    · cases made
      exact ⟨rfl, fun copy here => by cases here⟩
    · exact short

theorem steps_storeAll (copies : List MessageContent) : ∀ db : Db, db.Formed →
    copies.map MessageContent.id = List.range' db.nextContent copies.length →
      (∀ copy ∈ copies, copy.extraInfo = none) →
        copies.foldlM (fun db copy => db.store ⟨copy, peer, []⟩) db = .ok after →
          Steps db after True := by
  induction copies with
  | nil =>
    intro db formed _ _ stored
    cases stored
    exact .stay formed trivial
  | cons copy rest ih =>
    intro db formed ids plain stored
    rw [List.map_cons, List.length_cons, List.range'_succ] at ids
    obtain ⟨new, others⟩ := List.cons.inj ids
    rw [List.foldlM_cons] at stored
    obtain ⟨middle, first, later⟩ := (bind_eq_ok _).mp stored
    have step := steps_store_plain formed (Nat.le_of_eq new.symm) (plain copy List.mem_cons_self)
      first
    have next : middle.nextContent = db.nextContent + 1 := by
      obtain ⟨names, -, rfl⟩ := store_eq_ok.mp first
      exact congrArg (· + 1) new
    have run := ih middle step.formed (next ▸ others)
      (fun copy' here => plain copy' (List.mem_cons_of_mem copy here)) later
    exact ⟨run.formed, fun all => iff_of_true
      ((run.related_iff ((step.related_iff all).mpr trivial)).mpr trivial) trivial⟩

theorem steps_cloneForwardBulk (formed : db.Formed) {messages : List Message}
    {headers : List (Option MessageFwdHeader)} {infos groups : List (Option Nat)}
    (cloned : db.cloneForwardBulk messages peer args headers infos groups = .ok after) :
    Steps db after True := by
  obtain ⟨copies, made, stored⟩ := (bind_eq_ok _).mp cloned
  obtain ⟨ids, plain⟩ := cloneBulk_eq_ok made
  exact steps_storeAll copies db formed ids plain stored

theorem steps_cloneDiscussionMirror (formed : db.Formed) {channelId : Nat}
    (cloned : db.cloneDiscussionMirror m peer channelId = .ok after) : Steps db after True :=
  steps_store_plain formed (Nat.le_refl db.nextContent) rfl cloned

theorem steps_add (formed : db.Formed) (row : Named) :
    Steps db (db.apply (.add row)) (db.Keeps (.add row)) := by
  unfold apply
  dsimp only
  split
  · rename_i zero
    exact .stay formed fun other => absurd zero other
  · rename_i other
    refine ⟨⟨?_, ?_, formed.messages⟩, fun all => ?_⟩
    · intro here
      rcases List.mem_append.mp here with old | new
      · exact formed.zero old
      · exact other (List.mem_singleton.mp new).symm
    · exact fun row' here => ⟨(formed.rows row' here).1,
        List.mem_append_left _ (formed.rows row' here).2⟩
    · constructor
      · intro related _ fresh m here mentioned
        have known : row ∈ db.existing ++ [row] :=
          List.mem_append_right _ (List.mem_singleton_self row)
        have named := relatedTo_iff.mp (related m here) row mentioned known
        exact fresh (formed.rows _ named).2
      · intro unmentioned m here
        rw [relatedTo_iff]
        intro id mentioned known
        have old : id ∈ db.existing := by
          rcases List.mem_append.mp known with old | new
          · exact old
          · obtain rfl := List.mem_singleton.mp new
            by_contra fresh
            exact unmentioned other fresh m here mentioned
        exact relatedTo_iff.mp (all m here) id mentioned old

theorem mem_edit {contentId : Nat} {e : Edit} {m' : Message} :
    m' ∈ (db.edit contentId e).messages ↔ ∃ m ∈ db.messages,
      (if m.content.id == contentId && m.content.accepts e then m.edited e else m) = m' := by
  have edited : m' ∈ (db.edit contentId e).messages ↔ m' ∈ db.messages.modify
      (fun m => m.content.id == contentId && m.content.accepts e) (Message.edited e)
        fun _ => rfl := Iff.rfl
  exact edited.trans Table.mem_modify

theorem mentions_plain (plain : m.content.isService = false) : id ∈ m.mentions ↔
    id ∈ m.peer.mentions ∨ id ∈ m.content.makeFromId.toList ∨
      id ∈ m.content.entities.flatMap Entity.mentions ∨
        id ∈ m.content.fwdHeader.toList.flatMap MessageFwdHeader.mentions ∨
          id ∈ (m.content.viaBot.map Named.user).toList := by
  rw [Message.mentions, Message.contentMentions, if_neg (Bool.eq_false_iff.mp plain)]
  simp only [List.mem_append]

theorem mentions_of_edited {e : Edit} (plain : m.content.isService = false)
    (mentioned : id ∈ (m.edited e).mentions) : id ∈ m.mentions ∨
      ∃ text, e.text = some text ∧ id ∈ text.2.flatMap Entity.mentions := by
  have entities : (m.edited e).content.entities = (e.text.map Prod.snd).getD m.content.entities :=
    rfl
  rw [mentions_plain plain]
  rcases (mentions_plain (m := m.edited e) plain).mp mentioned with peer | author | entity | rest
  · exact .inl (.inl peer)
  · exact .inl (.inr (.inl author))
  · rw [entities] at entity
    cases given : e.text with
    | none =>
      rw [given] at entity
      exact .inl (.inr (.inr (.inl entity)))
    | some text =>
      rw [given] at entity
      exact .inr ⟨text, rfl, entity⟩
  · exact .inl (.inr (.inr (.inr rest)))

theorem plain_of_accepts {content : MessageContent} {e : Edit} (accepts : content.accepts e = true) :
    content.isService = false := by
  simp only [MessageContent.accepts, Bool.and_eq_true, Bool.not_eq_true'] at accepts
  exact accepts.1.1

theorem steps_edit (formed : db.Formed) (contentId : Nat) (e : Edit) :
    Steps db (db.edit contentId e) (db.Keeps (.edit contentId e)) := by
  refine ⟨⟨formed.zero, formed.rows, fun m here => ?_⟩, fun all => ?_⟩
  · obtain ⟨m, there, rfl⟩ := mem_edit.mp here
    have small := formed.messages m there
    split
    · exact small
    · exact small
  · constructor
    · intro related m found accepts text given id mentioned known
      obtain ⟨here, named⟩ := Table.get_eq_some_iff.mp found
      have chosen : (m.content.id == contentId && m.content.accepts e) = true := by
        rw [Bool.and_eq_true, beq_iff_eq]
        exact ⟨named, accepts⟩
      have edited : m.edited e ∈ (db.edit contentId e).messages :=
        mem_edit.mpr ⟨m, here, if_pos chosen⟩
      have entities : (m.edited e).content.entities = text.2 := by
        show (e.text.map Prod.snd).getD m.content.entities = text.2
        rw [given]
        rfl
      have plain : m.content.isService = false := plain_of_accepts accepts
      have shown : id ∈ (m.edited e).mentions := by
        refine (mentions_plain (m := m.edited e) plain).mpr (.inr (.inr (.inl ?_)))
        rw [entities]
        exact mentioned
      exact named ▸ relatedTo_iff.mp (related _ edited) id shown known
    · intro keeps m' here
      obtain ⟨m, there, rfl⟩ := mem_edit.mp here
      rw [relatedTo_iff]
      split
      · rename_i chosen
        rw [Bool.and_eq_true, beq_iff_eq] at chosen
        obtain ⟨rfl, accepts⟩ := chosen
        intro id mentioned known
        rcases mentions_of_edited (plain_of_accepts accepts) mentioned with
          old | ⟨text, given, new⟩
        · exact relatedTo_iff.mp (all m there) id old known
        · exact keeps m (Table.get_eq_some_iff.mpr ⟨there, rfl⟩) accepts text given id new known
      · exact relatedTo_iff.mp (all m there)

theorem steps_orSame (formed : db.Formed) {result : Except Failure Db} {keeps : Prop}
    (refused : ∀ failure, result = .error failure → keeps)
    (goes : ∀ after, result = .ok after → Steps db after keeps) :
    Steps db (db.orSame result) keeps := by
  cases result with
  | error failure => exact .stay formed (refused failure rfl)
  | ok after => exact goes after rfl

theorem steps_apply (formed : db.Formed) (e : Event) : Steps db (db.apply e) (db.Keeps e) := by
  cases e with
  | add row => exact steps_add formed row
  | createForPeer peer content named =>
    refine steps_orSame formed (fun failure refused => ?_) fun after => steps_createForPeer formed
    intro _ unread
    have stored : db.createForPeer peer content named = .ok _ :=
      store_eq_ok.mpr ⟨_, fillRelated_eq_ok.mpr ⟨[], fillAction_of_not_reads unread, rfl⟩, rfl⟩
    cases refused.symm.trans stored
  | cloneScheduled contentId now =>
    unfold apply
    dsimp only
    split
    · exact .stay formed trivial
    · rename_i m found
      split
      · rename_i scheduled
        exact steps_cloneScheduled formed (Table.get_eq_some_iff.mp found).1 scheduled
      · exact .stay formed trivial
  | cloneForward contentId relatedPeer args fwdHeader postInfo mediaGroupId =>
    unfold apply
    dsimp only
    split
    · exact .stay formed trivial
    · exact steps_orSame formed (fun _ _ => trivial) fun after => steps_cloneForward formed
  | cloneForwardBulk contentIds relatedPeer args fwdHeaders postInfos mediaGroupIds =>
    exact steps_orSame formed (fun _ _ => trivial) fun after => steps_cloneForwardBulk formed
  | cloneDiscussionMirror contentId relatedPeer broadcastChannelId =>
    unfold apply
    dsimp only
    split
    · exact .stay formed trivial
    · exact steps_orSame formed (fun _ _ => trivial) fun after =>
        steps_cloneDiscussionMirror formed
  | edit contentId e => exact steps_edit formed contentId e

end Db

theorem initial_formed : Db.initial.Formed where
  zero := List.not_mem_nil
  rows row here := by cases here
  messages m here := absurd here (Table.notMem_empty m)

/-- Whatever the messages mention is related to them in every state of a run exactly when every step
keeps it so. -/
theorem mentions_related_iff (es : List Event) :
    HoldsAlong Db.step Db.AllRelated Db.initial es ↔ StepsMeet Db.step Db.Keeps Db.initial es := by
  obtain ⟨after, run⟩ := runFrom_total (fun db e => ⟨Db.apply db e, rfl⟩) Db.initial es
  have start : Db.initial.Formed ∧ Db.initial.AllRelated :=
    ⟨initial_formed, fun m here => absurd here (Table.notMem_empty m)⟩
  refine holdsAlong_iff_stepsMeet (fun db (inv : db.Formed ∧ db.AllRelated) => inv.2)
    ?_ ?_ start run
  · rintro db e _ ⟨formed, all⟩ keeps happens
    obtain rfl := Option.some.inj happens
    have steps := Db.steps_apply formed e
    exact ⟨steps.formed, (steps.related_iff all).mpr keeps⟩
  · rintro db e _ ⟨formed, all⟩ breaks happens after
    obtain rfl := Option.some.inj happens
    exact breaks (((Db.steps_apply formed e).related_iff all).mp after)

private def author : User := ⟨1, "a", false⟩

private def ownChat : Peer where
  id := 1
  ownerId := some 1
  target := .chat ⟨5, false⟩
  blocked := false
  apart _ none := by cases none

/-- A user who has joined by a link of another one mentions that one, who is not related. -/
theorem inviter_unrelated : ¬ ∀ (es : List Event) (db : Db),
    runFrom Db.step Db.initial es = some db → db.AllRelated := by
  intro all
  let joined : MessageContent := {
    id := 0
    date := 0
    type := .serviceChatUserInviteJoin
    extraInfo := some (.chatJoinedByLink 2)
    author := some author }
  have related := all [.add (.user 1), .add (.user 2), .add (.chat 5),
    .createForPeer ownChat joined []] _ rfl ⟨{ joined with id := 1 }, ownChat, []⟩
    (List.mem_singleton_self _) (.user 2) (by decide) (by decide)
  exact absurd related.1 (by decide)

end Piltover.Contents.Related
