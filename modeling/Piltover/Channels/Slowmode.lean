/- source: piltover/app/handlers/messages/sending.py, piltover/db/models/slowmode_last_message.py
   digest: Slow mode over runs of the six requests that post to a channel, four of which record it. -/

import Piltover.Channels.PostingRights
import Piltover.Foundation.Runs
import Piltover.Foundation.Table

set_option autoImplicit false

namespace Piltover.Channels

open Piltover.Foundation
open Piltover.Foundation.Runs

/-- Times are in microseconds. -/
def second : Int := 1000000

/-- `B64URL_STR_RE`; its end matches before a final line break as well. -/
def isBase64Url (text : String) : Bool :=
  let ending := text.toList.reverse
  let ending := if ending.head? == some '\n' then ending.tail else ending
  let padding := ending.takeWhile fun c => c == '='
  decide (padding.length ≤ 2) && (ending.drop padding.length).all fun c =>
    c.isAlphanum || c == '-' || c == '_'

structure StartBot where
  startParam : String
  randomId : Int
  existing : Bool
  /-- The username of the bot, which has to have one. -/
  username : Option String

def startBot (user : Sender) (t : Target) (r : StartBot) : Except Failure Outcome := do
  require (r.startParam.length != 0) (.rpc 400 "START_PARAM_EMPTY")
  require (r.startParam.length ≤ 64) (.rpc 400 "START_PARAM_TOO_LONG")
  require (isBase64Url r.startParam) (.rpc 400 "START_PARAM_INVALID")
  require (r.randomId != 0) (.rpc 400 "RANDOM_ID_EMPTY")
  require (!t.peer.isBroadcast) (.rpc 400 "PEER_ID_INVALID")
  if r.existing then .ok .replayed else
  require (t.peer.canSendPlain (t.participant user)) (.rpc 403 "CHAT_SEND_PLAIN_FORBIDDEN")
  t.checkChannelSlowmode user
  let _ ← orRaise r.username .other
  .ok .posted

structure SlowmodeLastMessage where
  channelId : Nat
  userId : UserId
  lastMessage : Int
  deriving DecidableEq, Repr

def SlowmodeLastMessage.key (row : SlowmodeLastMessage) : Nat × UserId :=
  (row.channelId, row.userId)

/-- The row with a new time. -/
def SlowmodeLastMessage.setLastMessage (now : Int) (row : SlowmodeLastMessage) :
    SlowmodeLastMessage :=
  { row with lastMessage := now }

theorem SlowmodeLastMessage.key_setLastMessage (now : Int) (row : SlowmodeLastMessage) :
    (row.setLastMessage now).key = row.key := rfl

/-- The messages that one request has put into a channel. -/
structure Post where
  channelId : Nat
  userId : UserId
  date : Int
  deriving DecidableEq, Repr

structure Rooms where
  channels : Table Channel.id
  participants : Nat → List ChatParticipant
  slowmode : Table SlowmodeLastMessage.key
  posts : List Post
  clock : Int

inductive PostBody
  | posting (r : Posting)
  | startBot (r : StartBot)

/-- A request at its time. The checks and preparations of the handler are those of its body;
`stored` is how `send_message_internal` or the copying of the messages ends. -/
structure PostRequest where
  channelId : Nat
  user : Sender
  now : Int
  repliesToIncoming : Bool
  body : PostBody
  stored : Except Failure Unit

namespace Rooms

variable (w : Rooms)

/-- The part of `_check_channel_slowmode` that reads the last message: the wait that is left. -/
def slowmodeWait (showSeconds : Int → String) (c : Channel) (userId : UserId) (now : Int) :
    Option String :=
  match w.slowmode.get (c.id, userId) with
  | none => none
  | some row =>
    let nextTime := row.lastMessage + ((c.slowmodeSeconds.getD 0 : Int) - 1) * second
    if nextTime > now then some (showSeconds (now - nextTime)) else none

def updateChannelSlowmodeMaybe (c : Channel) (userId : UserId) (now : Int) : Rooms :=
  if c.slowmodeSeconds.getD 0 == 0 then w
  else { w with
    slowmode := w.slowmode.updateOrCreate ⟨c.id, userId, now⟩
      (SlowmodeLastMessage.setLastMessage now) (SlowmodeLastMessage.key_setLastMessage now) }

def target (showSeconds : Int → String) (c : Channel) (r : PostRequest) : Target where
  peer := .channel c
  participants := w.participants c.id
  slowmodeWait := w.slowmodeWait showSeconds c r.user.id r.now
  repliesToIncoming := r.repliesToIncoming

/-- What a handler leaves and answers. -/
abbrev Answered := Rooms × Except Failure Outcome

/-- Put the messages into the channel. -/
def store (c : Channel) (r : PostRequest) : Answered :=
  match r.stored with
  | .ok () => ({ w with posts := w.posts ++ [⟨c.id, r.user.id, r.now⟩] }, .ok .posted)
  | .error failure => (w, .error failure)

/-- Go on only when the request is to be carried out. -/
def whenPosted (checked : Except Failure Outcome) (rest : Answered) : Answered :=
  match checked with
  | .ok .posted => rest
  | other => (w, other)

section Handlers

variable (config : AppConfig) (t : Target) (c : Channel) (r : PostRequest)

def sendMessage (body : SendMessage) : Answered :=
  w.whenPosted (Channels.sendMessage config r.user t body)
    ((w.updateChannelSlowmodeMaybe c r.user.id r.now).store c r)

def sendMedia (body : SendMedia) : Answered :=
  w.whenPosted (Channels.sendMedia config r.user t body)
    ((w.updateChannelSlowmodeMaybe c r.user.id r.now).store c r)

-- The album is stored before the time is recorded.
def sendMultiMedia (body : SendMultiMedia) : Answered :=
  w.whenPosted (Channels.sendMultiMedia config r.user t body)
    (match r.stored with
    | .ok () => ((w.updateChannelSlowmodeMaybe c r.user.id r.now).store c r)
    | .error failure => (w, .error failure))

-- For a channel the handler returns before it would record the time.
def forwardMessages (body : ForwardMessages) : Answered :=
  w.whenPosted (Channels.forwardMessages r.user t body) (w.store c r)

-- Nothing is recorded.
def sendInlineBotResult (body : SendInlineBotResult) : Answered :=
  w.whenPosted (Channels.sendInlineBotResult r.user t body) (w.store c r)

def startBot (body : StartBot) : Answered :=
  w.whenPosted (Channels.startBot r.user t body)
    ((w.updateChannelSlowmodeMaybe c r.user.id r.now).store c r)

def answerIn : Answered :=
  match r.body with
  | .posting (.sendMessage body) => w.sendMessage config t c r body
  | .posting (.sendMedia body) => w.sendMedia config t c r body
  | .posting (.sendMultiMedia body) => w.sendMultiMedia config t c r body
  | .posting (.forwardMessages body) => w.forwardMessages t c r body
  | .posting (.sendInlineBotResult body) => w.sendInlineBotResult t c r body
  | .startBot body => w.startBot t c r body

end Handlers

/-- Carry a request out in the channel that it names. -/
def answer (config : AppConfig) (showSeconds : Int → String) (r : PostRequest) : Answered :=
  match w.channels.get r.channelId with
  | none => (w, .error (.rpc 400 "PEER_ID_INVALID"))
  | some c => w.answerIn config (w.target showSeconds c r) c r

end Rooms

/-- A request, or any change of the channels and their participants. -/
inductive RoomEvent
  | request (r : PostRequest)
  | change (channels : Table Channel.id) (participants : Nat → List ChatParticipant)

namespace Rooms

/-- Int does not go back. -/
def step (config : AppConfig) (showSeconds : Int → String) (w : Rooms) :
    RoomEvent → Option Rooms
  | .request r =>
    if w.clock ≤ r.now then some { (w.answer config showSeconds r).1 with clock := r.now }
    else none
  | .change channels participants =>
    some { w with channels := channels, participants := participants }

variable (channelId : Nat) (userId : UserId) (seconds : Nat)

def postsOf (w : Rooms) : List Post :=
  w.posts.filter fun p => p.channelId == channelId && p.userId == userId

/-- What the user puts into the channel is spaced by slow mode. -/
def Spaced (w : Rooms) : Prop :=
  (w.postsOf channelId userId).Pairwise fun a b => a.date + ((seconds : Int) - 1) * second ≤ b.date

/-- The channel has slow mode, and the user is no admin of it. -/
def InSlowmode (w : Rooms) : Prop :=
  ∃ c, w.channels.get channelId = some c ∧ c.slowmodeSeconds = some seconds ∧
    ∀ p ∈ w.participants channelId, p.userId = userId → p.left = false → p.isAdmin = false

end Rooms

/-- The request neither forwards messages nor sends the result of an inline bot, or it finds that it
was carried out before. -/
def PostBody.Records : PostBody → Prop
  | .posting (.forwardMessages body) => body.messages = []
  | .posting (.sendInlineBotResult body) => body.existing = true
  | _ => True

/-- The requests of the user in the channel record the time, where slow mode asks for a wait. -/
def RoomEvent.Records (channelId : Nat) (userId : UserId) (seconds : Nat) : RoomEvent → Prop
  | .request r =>
    r.channelId = channelId → r.user.id = userId → 1 < seconds → r.body.Records
  | .change _ _ => True

namespace Rooms

section Recording

variable (w : Rooms) (c : Channel) (userId : UserId) (now : Int)

theorem updateChannelSlowmodeMaybe_frame :
    (w.updateChannelSlowmodeMaybe c userId now).posts = w.posts ∧
      (w.updateChannelSlowmodeMaybe c userId now).channels = w.channels ∧
      (w.updateChannelSlowmodeMaybe c userId now).participants = w.participants := by
  unfold updateChannelSlowmodeMaybe
  split <;> exact ⟨rfl, rfl, rfl⟩

theorem get_updateChannelSlowmodeMaybe (key : Nat × UserId) :
    (w.updateChannelSlowmodeMaybe c userId now).slowmode.get key =
        w.slowmode.get key ∨
      (key = (c.id, userId) ∧ ∃ row,
        (w.updateChannelSlowmodeMaybe c userId now).slowmode.get key = some row ∧
          row.lastMessage = now) := by
  unfold updateChannelSlowmodeMaybe
  split
  · exact .inl rfl
  · dsimp only
    rw [Table.get_updateOrCreate]
    by_cases same : SlowmodeLastMessage.key ⟨c.id, userId, now⟩ = key
    · refine .inr ⟨same.symm, _, if_pos same, ?_⟩
      cases w.slowmode.get key <;> rfl
    · exact .inl (if_neg same)

variable {c} in
theorem get_updateChannelSlowmodeMaybe_self (asks : c.slowmodeSeconds.getD 0 ≠ 0) : ∃ row,
    (w.updateChannelSlowmodeMaybe c userId now).slowmode.get (c.id, userId) = some row ∧
      row.lastMessage = now := by
  have skipped : ¬ (c.slowmodeSeconds.getD 0 == 0) = true := fun zero => asks (beq_iff_eq.mp zero)
  rw [updateChannelSlowmodeMaybe, if_neg skipped]
  dsimp only
  rw [Table.get_updateOrCreate]
  refine ⟨_, if_pos rfl, ?_⟩
  cases w.slowmode.get (c.id, userId) <;> rfl

end Recording

section Answers

variable {config : AppConfig} {w : Rooms} {t : Target} {c : Channel} {r : PostRequest}

inductive Answers (w : Rooms) (t : Target) (c : Channel) (r : PostRequest) (after : Rooms) : Prop
  | refused (posts : after.posts = w.posts)
      (slowmode : after.slowmode = w.slowmode ∨
        after.slowmode = (w.updateChannelSlowmodeMaybe c r.user.id r.now).slowmode)
  | posted (checked : t.checkChannelSlowmode r.user = .ok ())
      (posts : after.posts = w.posts ++ [⟨c.id, r.user.id, r.now⟩])
      (slowmode : after.slowmode = (w.updateChannelSlowmodeMaybe c r.user.id r.now).slowmode ∨
        (after.slowmode = w.slowmode ∧ ¬ r.body.Records))

theorem checked_of_posted (peer : t.peer = .channel c) (posting : Posting)
    (posted : posting.answer config r.user t = .ok .posted) :
    t.checkChannelSlowmode r.user = .ok () := by
  have accepted := ((Posting.answer_posted_iff peer posting).mp posted).1
  cases posting with
  | sendMessage body => exact accepted.2.2.2.1
  | sendMedia body => exact accepted.2.2.2.1
  | sendMultiMedia body => exact accepted.2.1
  | forwardMessages body => exact accepted.2.1
  | sendInlineBotResult body => exact accepted.2.2.1

theorem checked_of_startBot {body : StartBot}
    (posted : Channels.startBot r.user t body = .ok .posted) :
    t.checkChannelSlowmode r.user = .ok () := by
  simp only [Channels.startBot, check_bind_eq_ok] at posted
  obtain ⟨-, -, -, -, -, rest⟩ := posted
  split at rest
  · cases rest
  · simp only [check_bind_eq_ok] at rest
    exact rest.2.1

theorem answers_recorded {checked : Except Failure Outcome}
    (asked : checked = .ok .posted → t.checkChannelSlowmode r.user = .ok ()) :
    Answers w t c r
      (w.whenPosted checked ((w.updateChannelSlowmodeMaybe c r.user.id r.now).store c r)).1 := by
  match checked with
  | .error failure => exact .refused rfl (.inl rfl)
  | .ok .replayed => exact .refused rfl (.inl rfl)
  | .ok .posted =>
    rw [whenPosted, store]
    split
    · refine .posted (asked rfl) ?_ (.inl rfl)
      rw [(updateChannelSlowmodeMaybe_frame w c r.user.id r.now).1]
    · exact .refused (updateChannelSlowmodeMaybe_frame w c r.user.id r.now).1 (.inr rfl)

theorem answers_unrecorded {checked : Except Failure Outcome}
    (asked : checked = .ok .posted → t.checkChannelSlowmode r.user = .ok () ∧ ¬ r.body.Records) :
    Answers w t c r (w.whenPosted checked (w.store c r)).1 := by
  match checked with
  | .error failure => exact .refused rfl (.inl rfl)
  | .ok .replayed => exact .refused rfl (.inl rfl)
  | .ok .posted =>
    rw [whenPosted, store]
    split
    · exact .posted (asked rfl).1 rfl (.inr ⟨rfl, (asked rfl).2⟩)
    · exact .refused rfl (.inl rfl)

theorem answers_sendMultiMedia (peer : t.peer = .channel c) {body : SendMultiMedia} :
    Answers w t c r (w.sendMultiMedia config t c r body).1 := by
  rw [sendMultiMedia]
  cases stored : r.stored with
  | ok u =>
    refine answers_recorded fun posted => ?_
    have answered : (Posting.sendMultiMedia body).answer config r.user t = .ok .posted := posted
    exact checked_of_posted peer _ answered
  | error failure =>
    match Channels.sendMultiMedia config r.user t body with
    | .error failure => exact .refused rfl (.inl rfl)
    | .ok .replayed => exact .refused rfl (.inl rfl)
    | .ok .posted => exact .refused rfl (.inl rfl)

theorem answers_answerIn (peer : t.peer = .channel c) :
    Answers w t c r (w.answerIn config t c r).1 := by
  have checked : ∀ posting : Posting, posting.answer config r.user t = .ok .posted →
      t.checkChannelSlowmode r.user = .ok () := checked_of_posted peer
  unfold answerIn
  split
  · exact answers_recorded (checked (.sendMessage _))
  · exact answers_recorded (checked (.sendMedia _))
  · exact answers_sendMultiMedia peer
  · rename_i body named
    refine answers_unrecorded fun posted => ⟨checked (.forwardMessages body) posted, ?_⟩
    have answered : (Posting.forwardMessages body).answer config r.user t = .ok .posted := posted
    have accepted := ((Posting.answer_posted_iff peer _).mp answered).1
    rw [named]
    exact accepted.2.2.2.2.2.2.2.2.1
  · rename_i body named
    refine answers_unrecorded fun posted => ⟨checked (.sendInlineBotResult body) posted, ?_⟩
    have answered : (Posting.sendInlineBotResult body).answer config r.user t = .ok .posted :=
      posted
    have fresh := ((Posting.answer_posted_iff peer _).mp answered).1.2.1
    rw [named]
    intro repeated
    rw [show body.existing = true from repeated] at fresh
    cases fresh
  · exact answers_recorded checked_of_startBot

end Answers

section Spacing

variable {config : AppConfig} {showSeconds : Int → String} {channelId : Nat} {userId : UserId}
  {seconds : Nat}

/-- What the user has put into the channel is spaced and in the past, and where slow mode asks for
a wait, the recorded time is not before it. -/
structure Watched (channelId : Nat) (userId : UserId) (seconds : Nat) (w : Rooms) : Prop where
  spaced : w.Spaced channelId userId seconds
  past : ∀ p ∈ w.postsOf channelId userId, p.date ≤ w.clock
  recorded : 1 < seconds → ∀ p ∈ w.postsOf channelId userId, ∃ row,
    w.slowmode.get (channelId, userId) = some row ∧ p.date ≤ row.lastMessage

theorem waited_of_checked {w : Rooms} {c : Channel} {r : PostRequest} {row : SlowmodeLastMessage}
    (asks : c.slowmodeSeconds = some seconds) (some_ : seconds ≠ 0)
    (plain : ∀ p ∈ w.participants c.id, p.userId = r.user.id → p.left = false → p.isAdmin = false)
    (checked : (w.target showSeconds c r).checkChannelSlowmode r.user = .ok ())
    (found : w.slowmode.get (c.id, r.user.id) = some row) :
    row.lastMessage + ((seconds : Int) - 1) * second ≤ r.now := by
  have member : ((w.target showSeconds c r).participant r.user).any
      (fun p => !p.left && p.isAdmin) = false := by
    cases listed : (w.target showSeconds c r).participant r.user with
    | none => rfl
    | some p =>
      have fits := List.find?_some listed
      rw [Bool.and_eq_true, beq_iff_eq, Bool.not_eq_true'] at fits
      have here := plain p (List.mem_of_find?_eq_some listed) fits.1 fits.2
      rw [Option.any_some, here, Bool.and_false]
  have skipped : (seconds == 0) = false := beq_eq_false_iff_ne.mpr some_
  unfold Target.checkChannelSlowmode at checked
  rw [show (w.target showSeconds c r).peer = .channel c from rfl] at checked
  simp only [asks, Option.getD_some, skipped, Bool.false_eq_true, if_false, member] at checked
  rw [show (w.target showSeconds c r).slowmodeWait = w.slowmodeWait showSeconds c r.user.id r.now
    from rfl, slowmodeWait, found] at checked
  simp only [asks, Option.getD_some] at checked
  by_contra early
  have late : row.lastMessage + ((seconds : Int) - 1) * second > r.now := Int.not_le.mp early
  rw [if_pos late] at checked
  cases checked

theorem recorded_stays {w after : Rooms} {c : Channel} {r : PostRequest} {p : Post}
    (left : after.slowmode = w.slowmode ∨
      after.slowmode = (w.updateChannelSlowmodeMaybe c r.user.id r.now).slowmode)
    (old : ∃ row, w.slowmode.get (channelId, userId) = some row ∧ p.date ≤ row.lastMessage)
    (past : p.date ≤ r.now) :
    ∃ row, after.slowmode.get (channelId, userId) = some row ∧ p.date ≤ row.lastMessage := by
  rcases left with same | updated
  · rw [same]
    exact old
  · rw [updated]
    rcases get_updateChannelSlowmodeMaybe w c r.user.id r.now (channelId, userId) with
      same | ⟨-, row, found, set⟩
    · rw [same]
      exact old
    · refine ⟨row, found, ?_⟩
      rw [set]
      exact past

theorem postsOf_append {w after : Rooms} {post : Post} (posts : after.posts = w.posts ++ [post]) :
    after.postsOf channelId userId = w.postsOf channelId userId ++
      if post.channelId == channelId && post.userId == userId then [post] else [] := by
  rw [postsOf, posts, List.filter_append, List.filter_singleton, cond_eq_ite, postsOf]

theorem watched_of_same {w after : Rooms} (watched : Watched channelId userId seconds w)
    (later : w.clock ≤ after.clock)
    (same : after.postsOf channelId userId = w.postsOf channelId userId)
    (stays : ∀ p : Post, p.date ≤ after.clock →
      (∃ row, w.slowmode.get (channelId, userId) = some row ∧ p.date ≤ row.lastMessage) →
      ∃ row, after.slowmode.get (channelId, userId) = some row ∧ p.date ≤ row.lastMessage) :
    Watched channelId userId seconds after := by
  refine ⟨?_, ?_, ?_⟩
  · rw [Spaced, same]
    exact watched.spaced
  · rw [same]
    exact fun p here => Int.le_trans (watched.past p here) later
  · rw [same]
    exact fun asks p here => stays p (Int.le_trans (watched.past p here) later)
      (watched.recorded asks p here)

theorem watched_posted {w after : Rooms} {c : Channel} {r : PostRequest}
    (watched : Watched channelId userId seconds w) (later : w.clock ≤ r.now)
    (asks : c.slowmodeSeconds = some seconds) (here : c.id = channelId)
    (mine : r.user.id = userId)
    (plain : ∀ p ∈ w.participants channelId, p.userId = userId → p.left = false →
      p.isAdmin = false)
    (checked : (w.target showSeconds c r).checkChannelSlowmode r.user = .ok ())
    (posts : after.posts = w.posts ++ [⟨c.id, r.user.id, r.now⟩])
    (recorded : 1 < seconds →
      after.slowmode = (w.updateChannelSlowmodeMaybe c r.user.id r.now).slowmode)
    (clock : after.clock = r.now) : Watched channelId userId seconds after := by
  subst here mine
  have all : after.postsOf c.id r.user.id =
      w.postsOf c.id r.user.id ++ [⟨c.id, r.user.id, r.now⟩] := by
    rw [postsOf_append posts, beq_self_eq_true, beq_self_eq_true, Bool.and_self, if_pos rfl]
  refine ⟨?_, ?_, ?_⟩
  · rw [Spaced, all, List.pairwise_append]
    refine ⟨watched.spaced, List.pairwise_singleton _ _, ?_⟩
    intro p earlier q new
    obtain rfl := List.mem_singleton.mp new
    have past := watched.past p earlier
    rcases Nat.lt_or_ge 1 seconds with long | short
    · obtain ⟨row, found, before⟩ := watched.recorded long p earlier
      have waited := waited_of_checked asks (Nat.ne_of_gt (Nat.lt_trans Nat.zero_lt_one long))
        plain checked found
      show p.date + ((seconds : Int) - 1) * second ≤ r.now
      omega
    · show p.date + ((seconds : Int) - 1) * 1000000 ≤ r.now
      omega
  · rw [all, clock]
    intro p listed
    rcases List.mem_append.mp listed with old | new
    · exact Int.le_trans (watched.past p old) later
    · exact Int.le_of_eq (congrArg Post.date (List.mem_singleton.mp new))
  · intro long p listed
    have zero : c.slowmodeSeconds.getD 0 ≠ 0 := by
      rw [asks, Option.getD_some]
      omega
    obtain ⟨row, found, set⟩ := get_updateChannelSlowmodeMaybe_self w r.user.id r.now zero
    rw [recorded long]
    refine ⟨row, found, ?_⟩
    rw [all] at listed
    rw [set]
    rcases List.mem_append.mp listed with old | new
    · exact Int.le_trans (watched.past p old) later
    · exact Int.le_of_eq (congrArg Post.date (List.mem_singleton.mp new))

theorem postsOf_other {w after : Rooms} {c : Channel} {r : PostRequest}
    (other : ¬ (c.id = channelId ∧ r.user.id = userId))
    (posts : after.posts = w.posts ++ [⟨c.id, r.user.id, r.now⟩]) :
    after.postsOf channelId userId = w.postsOf channelId userId := by
  have unlisted : (c.id == channelId && r.user.id == userId) = false := by
    rw [Bool.eq_false_iff]
    intro both
    rw [Bool.and_eq_true, beq_iff_eq, beq_iff_eq] at both
    exact other both
  rw [postsOf_append posts, unlisted, if_neg Bool.false_ne_true, List.append_nil]

theorem watched_step {w after : Rooms} {e : RoomEvent}
    (watched : Watched channelId userId seconds w)
    (slow : w.InSlowmode channelId userId seconds) (records : e.Records channelId userId seconds)
    (happens : step config showSeconds w e = some after) :
    Watched channelId userId seconds after := by
  cases e with
  | change channels participants =>
    cases happens
    exact ⟨watched.spaced, watched.past, watched.recorded⟩
  | request r =>
    simp only [step] at happens
    split at happens
    · rename_i later
      cases happens
      cases found : w.channels.get r.channelId with
      | none =>
        have untouched : (w.answer config showSeconds r).1 = w := by rw [answer, found]
        rw [untouched]
        exact watched_of_same watched later rfl fun p _ recorded => recorded
      | some c =>
        have answers : Answers w (w.target showSeconds c r) c r
            (w.answer config showSeconds r).1 := by
          rw [answer, found]
          exact answers_answerIn rfl
        obtain ⟨-, named⟩ := Table.get_eq_some_iff.mp found
        cases answers with
        | refused posts left =>
          refine watched_of_same watched later ?_ fun p past old =>
            recorded_stays left old past
          rw [postsOf, posts, postsOf]
        | posted checked posts left =>
          by_cases mine : c.id = channelId ∧ r.user.id = userId
          · obtain ⟨here, mine⟩ := mine
            obtain ⟨c', found', asks, plain⟩ := slow
            have same : c' = c := by
              rw [← here, named, found] at found'
              exact (Option.some.inj found').symm
            subst same
            refine watched_posted watched later asks here mine plain checked posts ?_ rfl
            intro long
            rcases left with updated | ⟨-, unrecorded⟩
            · exact updated
            · exact absurd (records (named.symm.trans here) mine long) unrecorded
          · refine watched_of_same watched later (postsOf_other mine posts) fun p past old =>
              recorded_stays (left.elim .inr fun unrecorded => .inl unrecorded.1) old past
    · cases happens

/-- In a channel with slow mode the messages of a user who is no admin are spaced along every run
in which the user neither forwards messages nor sends results of inline bots. -/
theorem spaced_along {w : Rooms} {es : List RoomEvent} (start : w.postsOf channelId userId = [])
    (meets : StepsMeet (step config showSeconds) (fun w e =>
      w.InSlowmode channelId userId seconds ∧ e.Records channelId userId seconds) w es) :
    HoldsAlong (step config showSeconds) (Spaced channelId userId seconds) w es := by
  have watched : Watched channelId userId seconds w := by
    refine ⟨?_, ?_, ?_⟩
    · rw [Spaced, start]
      exact .nil
    · rw [start]
      exact fun p absent => by cases absent
    · rw [start]
      exact fun _ p absent => by cases absent
  exact holdsAlong_of_stepsMeet (fun _ here => here.spaced)
    (fun _ _ _ here both happens => watched_step here both.1 both.2 happens) watched meets

end Spacing

end Rooms

/-- A group of two members with slow mode of one minute. -/
private def quietRoom : Rooms where
  channels := Table.insert Table.empty
    { creatorId := 1, bannedRights := 0, id := 41, channel := false, supergroup := true,
      nojoinAllowView := false, hiddenPrehistory := false, joinToSend := false,
      discussionId := none, isDiscussion := false, slowmodeSeconds := some 60, deleted := false,
      version := 2 }
  participants := fun _ => [⟨1, 0, 0, false⟩, ⟨2, 0, 0, false⟩]
  slowmode := Table.empty
  posts := []
  clock := 0

private def sent (now : Int) (posting : Posting) : RoomEvent :=
  .request ⟨41, ⟨2, false, false⟩, now, false, .posting posting, .ok ()⟩

private def text (randomId : Int) : Posting :=
  .sendMessage ⟨false, randomId, false, none, "quiet", .ok ()⟩

private def inlineResult (randomId : Int) : Posting :=
  .sendInlineBotResult ⟨randomId, false, none, some ⟨none, none, some "gif"⟩, .ok ()⟩

private def leftSeconds (_ : Int) : String := "0:01"

private theorem member_of_quietRoom : quietRoom.InSlowmode 41 2 60 :=
  ⟨_, rfl, rfl, by decide⟩

/-- Two texts a minute apart are posted and spaced. -/
theorem Rooms.texts_spaced :
    HoldsAlong (Rooms.step ⟨4096, 2048⟩ leftSeconds) (Rooms.Spaced 41 2 60) quietRoom
      [sent second (text 5), sent (61 * second) (text 6)] :=
  Rooms.spaced_along rfl
    ⟨⟨member_of_quietRoom, fun _ _ _ => trivial⟩, ⟨member_of_quietRoom, fun _ _ _ => trivial⟩,
      trivial⟩

/-- The result of an inline bot leaves no time behind, so that a text follows a second later. -/
theorem Rooms.inline_result_unrecorded :
    ¬ ∀ (config : AppConfig) (showSeconds : Int → String) (channelId : Nat) (userId : UserId)
      (seconds : Nat) (w : Rooms) (es : List RoomEvent), w.postsOf channelId userId = [] →
      StepsMeet (Rooms.step config showSeconds)
        (fun w _ => w.InSlowmode channelId userId seconds) w es →
      HoldsAlong (Rooms.step config showSeconds) (Rooms.Spaced channelId userId seconds) w es := by
  intro spaced
  have along := spaced ⟨4096, 2048⟩ leftSeconds 41 2 60 quietRoom
    [sent second (inlineResult 5), sent (2 * second) (text 6)] rfl
    ⟨member_of_quietRoom, member_of_quietRoom, trivial⟩
  have both : Rooms.Spaced 41 2 60 { quietRoom with
      posts := [⟨41, 2, second⟩, ⟨41, 2, 2 * second⟩]
      slowmode := Table.insert Table.empty ⟨41, 2, 2 * second⟩
      clock := 2 * second } := along _ _ (List.prefix_refl _) rfl
  have apart := (List.pairwise_cons.mp both).1 ⟨41, 2, 2 * second⟩ (List.mem_singleton.mpr rfl)
  exact absurd apart (by decide)

end Piltover.Channels
