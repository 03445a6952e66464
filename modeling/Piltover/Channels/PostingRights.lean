/- source: piltover/db/models/chat_base.py, piltover/app/handlers/messages/sending.py
   digest: Exactly when a posting request keeps to the rights of its sender. -/

import Piltover.Channels.Posting

set_option autoImplicit false

namespace Piltover.Channels

open Piltover.Foundation.Masks
open ChatBannedRights (viewMessages sendMessages sendPlain)
open ChatAdminRights (postMessages)
open ChatOrChannel (getParticipant)

/-! ### Rights of a channel -/

/-- A participant may do what needs the rights: as the creator, or when no personal ban and no
default ban that an admin right does not lift is in the way. -/
def Unbanned (c : Channel) (p : ChatParticipant) (rights : Nat) : Prop :=
  c.creatorId = p.userId ∨ (Apart p.bannedRights rights ∧
    (Within postMessages p.adminRights ∨ Apart c.bannedRights rights))

def MayPost (c : Channel) (participants : List ChatParticipant) (user : UserId)
    (rights : Nat) : Prop :=
  match getParticipant participants user with
  | some p =>
    if c.channel = true then c.creatorId = user ∨ Within postMessages p.adminRights
    else Unbanned c p rights
  | none =>
    if c.channel = true then c.creatorId = user
    else c.isDiscussion = true ∧ c.nojoinAllowView = true ∧ c.joinToSend = false

def Passes (c : Channel) (participant : Option ChatParticipant) (rights : Nat) : Prop :=
  match participant with
  | none => c.nojoinAllowView = true ∧ Apart c.bannedRights rights
  | some p =>
    c.creatorId = p.userId ∨ (Apart p.bannedRights viewMessages ∧
      if c.channel = true then Within postMessages p.adminRights
      else Apart p.bannedRights rights ∧
        (Within postMessages p.adminRights ∨ Apart c.bannedRights rights))

private theorem canViewMessages_some_iff (c : Channel) {p : ChatParticipant}
    (present : p.left = false) :
    (ChatOrChannel.channel c).canViewMessages (some p) = true ↔
      c.creatorId = p.userId ∨ Apart p.bannedRights viewMessages := by
  by_cases creator : c.creatorId = p.userId
  · simp [ChatOrChannel.canViewMessages, ChatOrChannel.checkRights, ChatOrChannel.base, present,
      creator]
  · simp only [ChatOrChannel.canViewMessages, ChatOrChannel.checkRights, ChatOrChannel.base,
      present, creator, ChatAdminRights.none, Nat.and_zero, gt_iff_lt, Nat.lt_irrefl, decide_false,
      Bool.and_false, Bool.false_eq_true, if_false, beq_iff_eq, false_or, beq_self_eq_true,
      if_true]
    by_cases banned : Apart p.bannedRights viewMessages
    · have allowed : ¬ 0 < p.bannedRights &&& viewMessages := by
        rw [show p.bannedRights &&& viewMessages = 0 from banned]
        exact Nat.lt_irrefl 0
      simp [banned, allowed]
    · have refused : 0 < p.bannedRights &&& viewMessages := Nat.pos_of_ne_zero banned
      simp [banned, refused]

theorem passes_or (c : Channel) (participant : Option ChatParticipant) (a b : Nat) :
    Passes c participant (a ||| b) ↔ Passes c participant a ∧ Passes c participant b := by
  cases participant with
  | none => simp only [Passes, apart_or]; tauto
  | some p =>
    cases broadcast : c.channel with
    | true => simp only [Passes, broadcast, if_true]; tauto
    | false => simp only [Passes, broadcast, apart_or, Bool.false_eq_true, if_false]; tauto

/-- `can_send_messages` followed by one more check of the right to post. -/
private theorem sending_iff (c : Channel) {participant : Option ChatParticipant}
    (present : ∀ p, participant = some p → p.left = false) (more : Nat) :
    ((ChatOrChannel.channel c).canSendMessages participant = true ∧
        (ChatOrChannel.channel c).checkRights participant postMessages more = true) ↔
      Passes c participant (sendMessages ||| more) := by
  rw [passes_or]
  cases participant with
  | none =>
    cases view : c.nojoinAllowView <;>
      simp [ChatOrChannel.canSendMessages, ChatOrChannel.checkCanSend,
        ChatOrChannel.canViewMessages, Passes, view, ChatOrChannel.checkRights_none_iff]
  | some p =>
    have view := canViewMessages_some_iff c (present p rfl)
    by_cases seen : (ChatOrChannel.channel c).canViewMessages (some p) = true
    · have cause := view.mp seen
      simp only [ChatOrChannel.canSendMessages, ChatOrChannel.checkCanSend, seen, Passes,
        Bool.not_true, Bool.false_eq_true, if_false,
        ChatOrChannel.checkRights_some_iff c p (show 0 < postMessages by decide)]
      tauto
    · have cause := mt view.mpr seen
      simp only [ChatOrChannel.canSendMessages, ChatOrChannel.checkCanSend, seen, Passes,
        Bool.not_false, if_true, Bool.false_eq_true, false_and, false_iff, not_and]
      tauto

private theorem participant_present (t : Target) (user : Sender) :
    ∀ p, t.participant user = some p → p.left = false := by
  intro p found
  have fits := List.find?_some found
  rw [Bool.and_eq_true, Bool.not_eq_true'] at fits
  exact fits.2

private theorem participant_userId {t : Target} {user : Sender} {p : ChatParticipant}
    (found : t.participant user = some p) : p.userId = user.id := by
  have fits := List.find?_some found
  rw [Bool.and_eq_true, beq_iff_eq] at fits
  exact fits.1

private theorem canSendPlain_iff {t : Target} {user : Sender} {c : Channel}
    (peer : t.peer = .channel c) :
    t.peer.canSendPlain (t.participant user) = true ↔
      Passes c (t.participant user) (sendMessages ||| sendPlain) := by
  rw [← sending_iff c (participant_present t user), peer, ChatOrChannel.canSendPlain]
  cases ChatOrChannel.canSendMessages (.channel c) (t.participant user) <;> simp

private theorem canSendMedia_iff {t : Target} {user : Sender} {c : Channel}
    (peer : t.peer = .channel c) (mediaType : Nat) :
    t.peer.canSendMedia (t.participant user) mediaType = true ↔
      Passes c (t.participant user) (sendMessages ||| (ChatBannedRights.sendMedia ||| mediaType)) := by
  rw [← sending_iff c (participant_present t user), peer, ChatOrChannel.canSendMedia]
  cases ChatOrChannel.canSendMessages (.channel c) (t.participant user) <;> simp

private theorem canSendMessages_iff {t : Target} {user : Sender} {c : Channel}
    (peer : t.peer = .channel c) :
    t.peer.canSendMessages (t.participant user) = true ↔
      Passes c (t.participant user) sendMessages := by
  rw [← Nat.or_self sendMessages, ← sending_iff c (participant_present t user), peer,
    ChatOrChannel.canSendMessages]
  cases ChatOrChannel.checkCanSend (.channel c) (t.participant user) <;> simp

/-! ### The five requests -/

def contentRights : Option MessageMedia → Nat
  | none => sendPlain
  | some media =>
    match media.toChatBannedRight with
    | some right => ChatBannedRights.sendMedia ||| right
    | none => sendPlain

def contentsRights (contents : List (Option MessageMedia)) : Nat :=
  contents.foldr (fun content rights => contentRights content ||| rights) sendMessages

inductive Posting
  | sendMessage (r : SendMessage)
  | sendMedia (r : SendMedia)
  | sendMultiMedia (r : SendMultiMedia)
  | forwardMessages (r : ForwardMessages)
  | sendInlineBotResult (r : SendInlineBotResult)

namespace Posting

def answer (config : AppConfig) (user : Sender) (t : Target) : Posting → Except Failure Outcome
  | sendMessage r => Channels.sendMessage config user t r
  | sendMedia r => Channels.sendMedia config user t r
  | sendMultiMedia r => Channels.sendMultiMedia config user t r
  | forwardMessages r => Channels.forwardMessages user t r
  | sendInlineBotResult r => Channels.sendInlineBotResult user t r

/-- What the messages need that the request stores. -/
def needed : Posting → Nat
  | sendMessage _ => contentsRights [none]
  | sendMedia r => contentsRights ((processMedia r.media).toOption.toList.map some)
  | sendMultiMedia r => contentsRights (r.multiMedia.map SingleMedia.media)
  | forwardMessages r => contentsRights (r.messages.map SourceMessage.media)
  | sendInlineBotResult r => contentsRights (r.item.toList.map InlineQueryResultItem.media)

/-- What the handler checks. -/
def checked : Posting → Nat
  | sendMessage _ => sendMessages ||| sendPlain
  | sendMedia r =>
    sendMessages ||| (ChatBannedRights.sendMedia ||| getInputMediaBannedRights r.media)
  | sendMultiMedia _ => sendMessages ||| ChatBannedRights.sendMedia
  | forwardMessages r =>
    let flags := checkCanSendFlags r.messages
    sendMessages ||| (if flags.1 then sendPlain else 0)
      ||| (if flags.2 = 0 then 0 else ChatBannedRights.sendMedia ||| flags.2)
  | sendInlineBotResult _ => sendMessages

/-- The request gets past everything that is not about the right to post, and is no repetition. -/
def OtherwiseAccepted (config : AppConfig) (user : Sender) (t : Target) : Posting → Prop
  | sendMessage r =>
    ¬ (r.scheduled = true ∧ user.bot = true) ∧ r.randomId ≠ 0 ∧ r.existing = false ∧
      t.checkChannelSlowmode user = .ok () ∧ t.checkSpamBlocked user r.replyTo = .ok () ∧
      r.message.length ≠ 0 ∧ r.message.length ≤ config.maxMessageLength ∧ r.rest = .ok ()
  | sendMedia r =>
    ¬ (r.scheduled = true ∧ user.bot = true) ∧ r.randomId ≠ 0 ∧ r.existing = false ∧
      t.checkChannelSlowmode user = .ok () ∧ t.checkSpamBlocked user r.replyTo = .ok () ∧
      r.message.length ≤ config.maxCaptionLength ∧
      (∃ media, processMedia r.media = .ok media) ∧ r.rest = .ok ()
  | sendMultiMedia r =>
    ¬ (r.scheduled = true ∧ user.bot = true) ∧
      t.checkChannelSlowmode user = .ok () ∧ t.checkSpamBlocked user r.replyTo = .ok () ∧
      r.multiMedia ≠ [] ∧ r.multiMedia.length ≤ 10 ∧
      (r.replyTo.getD 0 = 0 ∨ r.replyExists = true) ∧
      (∃ media, r.multiMedia.mapM (checkSingleMedia config) = .ok media) ∧
      r.duplicate = false ∧ r.rest = .ok ()
  | forwardMessages r =>
    r.source = .ok () ∧ t.checkChannelSlowmode user = .ok () ∧
      t.checkSlowmodeMulti user r.ids.length = .ok () ∧
      t.checkSpamBlocked user none = .ok () ∧ r.ids ≠ [] ∧
      r.ids.length = r.randomIds.length ∧ 0 ∉ r.randomIds.take 100 ∧
      (r.randomIds.take 100).Nodup ∧ r.messages ≠ [] ∧
      (∀ message ∈ r.messages, message.noForwards = false) ∧ r.rest = .ok ()
  | sendInlineBotResult r =>
    r.randomId ≠ 0 ∧ r.existing = false ∧
      t.checkChannelSlowmode user = .ok () ∧ t.checkSpamBlocked user r.replyTo = .ok () ∧
      (∃ item, r.item = some item ∧
        ((item.sendMessageText.getD "").length ≠ 0 ∨ item.media.isSome = true)) ∧
      r.rest = .ok ()

private theorem not_both_iff {a b : Bool} : (!(a && b)) = true ↔ ¬ (a = true ∧ b = true) := by
  cases a <;> cases b <;> simp

private theorem checkCanSendFlags_eq (c : Channel) (participant : Option ChatParticipant)
    (flags : Bool × Nat) :
    Passes c participant (sendMessages ||| (if flags.1 then sendPlain else 0)
        ||| (if flags.2 = 0 then 0 else ChatBannedRights.sendMedia ||| flags.2)) ↔
      Passes c participant sendMessages ∧
        (flags.1 = false ∨ Passes c participant (sendMessages ||| sendPlain)) ∧
        (flags.2 = 0 ∨ Passes c participant
          (sendMessages ||| (ChatBannedRights.sendMedia ||| flags.2))) := by
  obtain ⟨plain, media⟩ := flags
  have nothing : Passes c participant sendMessages → Passes c participant 0 := by
    intro passes
    rw [← Nat.or_zero sendMessages, passes_or] at passes
    exact passes.2
  rw [passes_or, passes_or]
  by_cases none : media = 0
  · cases plain with
    | false => simpa [none] using nothing
    | true => simp only [none, if_true, passes_or, Bool.true_eq_false, true_or, false_or]; tauto
  · cases plain with
    | false =>
      simp only [none, if_false, passes_or, Bool.false_eq_true, true_or, false_or]
      tauto
    | true => simp only [none, if_true, if_false, passes_or, Bool.true_eq_false, false_or]; tauto

variable {config : AppConfig} {user : Sender} {t : Target} {c : Channel}

private theorem answer_sendMessage_iff (peer : t.peer = .channel c) (r : SendMessage) :
    (sendMessage r).answer config user t = .ok .posted ↔
      (sendMessage r).OtherwiseAccepted config user t ∧
        Passes c (t.participant user) (sendMessage r).checked := by
  simp only [answer, Channels.sendMessage, OtherwiseAccepted, checked, check_bind_eq_ok,
    require_eq_ok, not_both_iff]
  cases r.existing with
  | true => simp
  | false =>
    simp only [Bool.false_eq_true, if_false, check_bind_eq_ok, require_eq_ok,
      canSendPlain_iff peer, bne_iff_ne, decide_eq_true_eq, true_and, and_true]
    tauto

private theorem answer_sendMedia_iff (peer : t.peer = .channel c) (r : SendMedia) :
    (sendMedia r).answer config user t = .ok .posted ↔
      (sendMedia r).OtherwiseAccepted config user t ∧
        Passes c (t.participant user) (sendMedia r).checked := by
  simp only [answer, Channels.sendMedia, OtherwiseAccepted, checked, check_bind_eq_ok,
    require_eq_ok, not_both_iff]
  cases r.existing with
  | true => simp
  | false =>
    simp only [Bool.false_eq_true, if_false, check_bind_eq_ok, require_eq_ok,
      bind_eq_ok (processMedia r.media), canSendMedia_iff peer, bne_iff_ne, decide_eq_true_eq,
      true_and, and_true, exists_and_right]
    tauto

private theorem answer_sendMultiMedia_iff (peer : t.peer = .channel c) (r : SendMultiMedia) :
    (sendMultiMedia r).answer config user t = .ok .posted ↔
      (sendMultiMedia r).OtherwiseAccepted config user t ∧
        Passes c (t.participant user) (sendMultiMedia r).checked := by
  simp only [answer, Channels.sendMultiMedia, OtherwiseAccepted, checked, check_bind_eq_ok,
    require_eq_ok, not_both_iff]
  simp only [bind_eq_ok (r.multiMedia.mapM (checkSingleMedia config)), check_bind_eq_ok,
    require_eq_ok, canSendMedia_iff peer, ChatBannedRights.none, Nat.or_zero,
    Bool.not_eq_true', List.isEmpty_eq_false_iff, decide_eq_true_eq, Bool.or_eq_true, beq_iff_eq,
    and_true, ne_eq]
  constructor
  · rintro ⟨bot, pass, slow, spam, some, few, reply, media, found, fresh, rest⟩
    exact ⟨⟨bot, slow, spam, some, few, reply, ⟨media, found⟩, fresh, rest⟩, pass⟩
  · rintro ⟨⟨bot, slow, spam, some, few, reply, ⟨media, found⟩, fresh, rest⟩, pass⟩
    exact ⟨bot, pass, slow, spam, some, few, reply, media, found, fresh, rest⟩

private theorem answer_forwardMessages_iff (peer : t.peer = .channel c) (r : ForwardMessages) :
    (forwardMessages r).answer config user t = .ok .posted ↔
      (forwardMessages r).OtherwiseAccepted config user t ∧
        Passes c (t.participant user) (forwardMessages r).checked := by
  simp only [checked, checkCanSendFlags_eq]
  simp only [answer, Channels.forwardMessages, OtherwiseAccepted, check_bind_eq_ok,
    require_eq_ok, canSendMessages_iff peer, Bool.not_eq_true', List.isEmpty_eq_false_iff,
    decide_eq_true_eq, beq_iff_eq, List.contains_eq_mem, decide_eq_false_iff_not, ne_eq]
  by_cases empty : r.messages = []
  · cases r.existing <;> simp [empty]
  · have some : r.messages.isEmpty = false := List.isEmpty_eq_false_iff.mpr empty
    simp only [some, Bool.false_eq_true, if_false, check_bind_eq_ok, require_eq_ok,
      canSendPlain_iff peer, canSendMedia_iff peer, Bool.or_eq_true, Bool.not_eq_true', beq_iff_eq,
      List.all_eq_true, empty, not_false_eq_true, true_and, and_true]
    tauto

private theorem answer_sendInlineBotResult_iff (peer : t.peer = .channel c)
    (r : SendInlineBotResult) :
    (sendInlineBotResult r).answer config user t = .ok .posted ↔
      (sendInlineBotResult r).OtherwiseAccepted config user t ∧
        Passes c (t.participant user) (sendInlineBotResult r).checked := by
  simp only [answer, Channels.sendInlineBotResult, OtherwiseAccepted, checked, check_bind_eq_ok,
    require_eq_ok]
  cases r.existing with
  | true => simp
  | false =>
    cases r.item with
    | none => simp [check_bind_eq_ok]
    | some item =>
      simp only [Bool.false_eq_true, if_false, check_bind_eq_ok, require_eq_ok,
        canSendMessages_iff peer, bne_iff_ne, Bool.or_eq_true, true_and, and_true,
        Option.some.injEq, exists_eq_left']
      tauto

/-- A posting request stores messages exactly when its sender passes the rights that the handler
checks, and nothing else is in the way. -/
theorem answer_posted_iff (peer : t.peer = .channel c) (posting : Posting) :
    posting.answer config user t = .ok .posted ↔
      posting.OtherwiseAccepted config user t ∧ Passes c (t.participant user) posting.checked := by
  cases posting with
  | sendMessage r => exact answer_sendMessage_iff peer r
  | sendMedia r => exact answer_sendMedia_iff peer r
  | sendMultiMedia r => exact answer_sendMultiMedia_iff peer r
  | forwardMessages r => exact answer_forwardMessages_iff peer r
  | sendInlineBotResult r => exact answer_sendInlineBotResult_iff peer r

end Posting

/-! ### More rights -/

structure Grant where
  addAdmin : Nat
  keepBanned : Nat
  keepDefault : Nat
  deriving DecidableEq, Repr

namespace Grant

def participant (g : Grant) (p : ChatParticipant) : ChatParticipant :=
  { p with
    adminRights := p.adminRights ||| g.addAdmin
    bannedRights := p.bannedRights &&& g.keepBanned }

def channel (g : Grant) (c : Channel) : Channel :=
  { c with bannedRights := c.bannedRights &&& g.keepDefault }

/-- The user gets the admin rights and loses the bans. -/
def apply (g : Grant) (user : UserId) (t : Target) : Target :=
  { t with
    peer :=
      match t.peer with
      | .chat c => .chat { c with bannedRights := c.bannedRights &&& g.keepDefault }
      | .channel c => .channel (g.channel c)
    participants := t.participants.map fun p => if p.userId = user then g.participant p else p }

variable {config : AppConfig} {user : Sender} {t : Target} {c : Channel} (g : Grant)

private theorem participant_apply :
    (g.apply user.id t).participant user = (t.participant user).map g.participant := by
  let change := fun p : ChatParticipant => if p.userId = user.id then g.participant p else p
  have same : (fun p : ChatParticipant => p.userId == user.id && !p.left) ∘ change =
      fun p => p.userId == user.id && !p.left := by
    funext p
    by_cases mine : p.userId = user.id
    · simp [change, mine, participant]
    · simp [change, mine]
  calc (g.apply user.id t).participant user
      = (t.participant user).map change := by
        simp only [Target.participant, apply, getParticipant, List.find?_map]
        rw [same]
    _ = (t.participant user).map g.participant := by
        cases found : t.participant user with
        | none => rfl
        | some p => simp [change, participant_userId found]

private theorem within_and (mask keep : Nat) : Within (mask &&& keep) mask :=
  within_iff.mpr fun i set => by
    rw [Nat.testBit_and, Bool.and_eq_true] at set
    exact set.1

private theorem within_or_left {rights mask : Nat} (more : Nat) (within : Within rights mask) :
    Within rights (mask ||| more) :=
  within_iff.mpr fun i set => by
    rw [Nat.testBit_or, within_iff.mp within i set, Bool.true_or]

private theorem isAdmin_participant {p : ChatParticipant} (admin : p.isAdmin = true) :
    (g.participant p).isAdmin = true := by
  have positive : 0 < p.adminRights := of_decide_eq_true admin
  exact decide_eq_true (pos_of_within (within_or_left g.addAdmin (within_refl _)) positive)

private theorem passes_apply {participant : Option ChatParticipant} {rights : Nat}
    (passes : Passes c participant rights) :
    Passes (g.channel c) (participant.map g.participant) rights := by
  have defaults : Apart c.bannedRights rights → Apart (g.channel c).bannedRights rights :=
    Apart.mono (within_and c.bannedRights g.keepDefault)
  cases participant with
  | none => exact ⟨passes.1, defaults passes.2⟩
  | some p =>
    have personal (rights : Nat) : Apart p.bannedRights rights →
        Apart (g.participant p).bannedRights rights :=
      Apart.mono (within_and p.bannedRights g.keepBanned)
    have admin : Within postMessages p.adminRights →
        Within postMessages (g.participant p).adminRights := within_or_left g.addAdmin
    have same : (g.channel c).channel = c.channel := rfl
    rcases passes with creator | ⟨view, post⟩
    · exact .inl creator
    · refine .inr ⟨personal _ view, ?_⟩
      rw [same]
      cases broadcast : c.channel with
      | true =>
        simp only [broadcast, if_true] at post ⊢
        exact admin post
      | false =>
        simp only [broadcast, Bool.false_eq_true, if_false] at post ⊢
        exact ⟨personal _ post.1, post.2.imp admin defaults⟩

private theorem slowmode_apply (user : Sender) (peer : t.peer = .channel c)
    (quick : t.checkChannelSlowmode user = .ok ()) :
    (g.apply user.id t).checkChannelSlowmode user = .ok () := by
  have later : (g.apply user.id t).peer = .channel (g.channel c) := by simp [apply, peer]
  have wait : (g.apply user.id t).slowmodeWait = t.slowmodeWait := rfl
  have seconds : (g.channel c).slowmodeSeconds = c.slowmodeSeconds := rfl
  simp only [Target.checkChannelSlowmode, peer] at quick
  simp only [Target.checkChannelSlowmode, later, participant_apply, wait, seconds]
  by_cases off : (c.slowmodeSeconds.getD 0 == 0) = true
  · rw [if_pos off]
  · rw [if_neg off] at quick ⊢
    cases found : t.participant user with
    | none => simpa [found] using quick
    | some p =>
      simp only [found, Option.any_some, Option.map_some] at quick ⊢
      by_cases admin : (!p.left && p.isAdmin) = true
      · rw [Bool.and_eq_true] at admin
        have here : (!(g.participant p).left && (g.participant p).isAdmin) = true := by
          rw [Bool.and_eq_true]
          exact ⟨admin.1, isAdmin_participant g admin.2⟩
        rw [if_pos here]
      · rw [if_neg admin] at quick
        rw [quick, ite_self]

private theorem slowmodeMulti_apply (peer : t.peer = .channel c) {count : Nat}
    (few : t.checkSlowmodeMulti user count = .ok ()) :
    (g.apply user.id t).checkSlowmodeMulti user count = .ok () := by
  have later : (g.apply user.id t).peer = .channel (g.channel c) := by simp [apply, peer]
  have seconds : (g.channel c).slowmodeSeconds = c.slowmodeSeconds := rfl
  simp only [Target.checkSlowmodeMulti, peer, require_eq_ok, Bool.or_eq_true] at few
  simp only [Target.checkSlowmodeMulti, later, require_eq_ok, Bool.or_eq_true, participant_apply,
    seconds]
  refine few.imp_left (Or.imp_right fun admin => ?_)
  cases found : t.participant user with
  | none => simp [found] at admin
  | some p =>
    simp only [found, Option.any_some, Option.map_some] at admin ⊢
    exact isAdmin_participant g admin

private theorem spamBlocked_apply {replyTo : Option Nat}
    (clean : t.checkSpamBlocked user replyTo = .ok ()) :
    (g.apply user.id t).checkSpamBlocked user replyTo = .ok () := by
  have replies : (g.apply user.id t).repliesToIncoming = t.repliesToIncoming := rfl
  have creator : (g.apply user.id t).peer.base.creatorId = t.peer.base.creatorId := by
    simp only [apply]
    cases t.peer <;> rfl
  simp only [Target.checkSpamBlocked, require_eq_ok, Bool.or_eq_true] at clean ⊢
  rw [replies]
  refine clean.imp_left (Or.imp_right fun allowed => ?_)
  simp only [Target.peerAllowsSpamBlockedSend, participant_apply, creator] at allowed ⊢
  cases found : t.participant user with
  | none => simp [found] at allowed
  | some p =>
    simp only [found, Option.map_some, Bool.or_eq_true] at allowed ⊢
    exact allowed.imp_right (isAdmin_participant g)

theorem otherwiseAccepted_apply (peer : t.peer = .channel c) {posting : Posting}
    (accepted : posting.OtherwiseAccepted config user t) :
    posting.OtherwiseAccepted config user (g.apply user.id t) := by
  have slow := slowmode_apply g user peer
  cases posting with
  | sendMessage r =>
    obtain ⟨bot, random, fresh, quick, clean, rest⟩ := accepted
    exact ⟨bot, random, fresh, slow quick, spamBlocked_apply g clean, rest⟩
  | sendMedia r =>
    obtain ⟨bot, random, fresh, quick, clean, rest⟩ := accepted
    exact ⟨bot, random, fresh, slow quick, spamBlocked_apply g clean, rest⟩
  | sendMultiMedia r =>
    obtain ⟨bot, quick, clean, rest⟩ := accepted
    exact ⟨bot, slow quick, spamBlocked_apply g clean, rest⟩
  | forwardMessages r =>
    obtain ⟨source, quick, few, clean, rest⟩ := accepted
    exact ⟨source, slow quick, slowmodeMulti_apply g peer few, spamBlocked_apply g clean, rest⟩
  | sendInlineBotResult r =>
    obtain ⟨random, fresh, quick, clean, rest⟩ := accepted
    exact ⟨random, fresh, slow quick, spamBlocked_apply g clean, rest⟩

/-- A request that stores messages still does so after its sender got more rights. -/
theorem posted_apply (peer : t.peer = .channel c) {posting : Posting}
    (posted : posting.answer config user t = .ok .posted) :
    posting.answer config user (g.apply user.id t) = .ok .posted := by
  have later : (g.apply user.id t).peer = .channel (g.channel c) := by simp [apply, peer]
  obtain ⟨accepted, passes⟩ := (Posting.answer_posted_iff peer posting).mp posted
  refine (Posting.answer_posted_iff later posting).mpr
    ⟨otherwiseAccepted_apply g peer accepted, ?_⟩
  rw [participant_apply]
  exact passes_apply g passes

end Grant

/-! ### Posting by right -/

/-- Messages are stored only for those who may post what they need, and more rights never turn the
request away. -/
def PostsByRight (config : AppConfig) (user : Sender) (t : Target) (posting : Posting) : Prop :=
  ∀ c, t.peer = .channel c → posting.answer config user t = .ok .posted →
    MayPost c t.participants user.id posting.needed ∧
      ∀ g : Grant, posting.answer config user (g.apply user.id t) = .ok .posted

/-- Outsiders see only discussion groups that need no joining to send; and a member of a group is
not banned from just the rights that the handler leaves unchecked. -/
def RightsEnforced (config : AppConfig) (user : Sender) (t : Target) (posting : Posting) : Prop :=
  ∀ c, t.peer = .channel c → posting.OtherwiseAccepted config user t →
    match t.participant user with
    | none =>
      c.nojoinAllowView = true → Apart c.bannedRights posting.checked →
        if c.channel = true then c.creatorId = user.id
        else c.isDiscussion = true ∧ c.joinToSend = false
    | some p =>
      c.channel = false → Apart p.bannedRights viewMessages →
        Unbanned c p posting.checked → Unbanned c p posting.needed

theorem mayPost_iff (c : Channel) (t : Target) (user : Sender) (posting : Posting) :
    (Passes c (t.participant user) posting.checked →
        MayPost c t.participants user.id posting.needed) ↔
      match t.participant user with
      | none =>
        c.nojoinAllowView = true → Apart c.bannedRights posting.checked →
          if c.channel = true then c.creatorId = user.id
          else c.isDiscussion = true ∧ c.joinToSend = false
      | some p =>
        c.channel = false → Apart p.bannedRights viewMessages →
          Unbanned c p posting.checked → Unbanned c p posting.needed := by
  have same : getParticipant t.participants user.id = t.participant user := rfl
  unfold MayPost
  rw [same]
  cases found : t.participant user with
  | none =>
    cases broadcast : c.channel with
    | true => simp only [Passes, if_true, and_imp]
    | false =>
      simp only [Passes, Bool.false_eq_true, if_false, and_imp]
      tauto
  | some p =>
    have mine := participant_userId found
    cases broadcast : c.channel with
    | true =>
      simp only [Passes, broadcast, mine, if_true, Bool.true_eq_false, false_implies, iff_true]
      tauto
    | false =>
      simp only [Passes, Unbanned, broadcast, Bool.false_eq_true, if_false]
      tauto

/-- A posting request keeps to the rights of its sender exactly when outsiders of the channel are
let in by the discussion rule only and no ban concerns just an unchecked right. -/
theorem postsByRight_iff (config : AppConfig) (user : Sender) (t : Target) (posting : Posting) :
    PostsByRight config user t posting ↔ RightsEnforced config user t posting := by
  refine forall_congr' fun c => forall_congr' fun peer => ?_
  rw [← mayPost_iff]
  constructor
  · intro byRight accepted passes
    exact (byRight ((Posting.answer_posted_iff peer posting).mpr ⟨accepted, passes⟩)).1
  · intro enforced posted
    obtain ⟨accepted, passes⟩ := (Posting.answer_posted_iff peer posting).mp posted
    exact ⟨enforced accepted passes, fun g => g.posted_apply peer posted⟩

private def discussionGroup : Channel where
  creatorId := 1
  bannedRights := 0
  id := 7
  channel := false
  supergroup := true
  nojoinAllowView := true
  hiddenPrehistory := false
  joinToSend := true
  discussionId := none
  isDiscussion := true
  slowmodeSeconds := none
  deleted := false
  version := 3

private def hello : SendMessage where
  scheduled := false
  randomId := 5
  existing := false
  replyTo := none
  message := "hello"
  rest := .ok ()

/-- A user who has never joined posts to a discussion group that asks for joining first. -/
theorem outsider_posts :
    ¬ ∀ (config : AppConfig) (user : Sender) (t : Target) (posting : Posting),
      PostsByRight config user t posting := by
  intro byRight
  have allowed := (byRight ⟨4096, 2048⟩ ⟨2, false, false⟩
    ⟨.channel discussionGroup, [⟨1, 0, 0, false⟩], none, false⟩ (.sendMessage hello)
    discussionGroup rfl (by decide)).1
  exact absurd allowed.2.2 (by decide)

end Piltover.Channels
