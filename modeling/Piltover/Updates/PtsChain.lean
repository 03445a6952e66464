/- source: piltover/app/utils/updates_manager.py, notes/updates-on-server.md
   digest: Whether the pts of the updates that a user is pushed go on without gaps. -/

import Piltover.Foundation.Chain
import Piltover.Foundation.Runs
import Piltover.Updates.Manager

set_option autoImplicit false

namespace Piltover.Updates.Manager

open Piltover.Foundation
open Piltover.Foundation.Chain
open Piltover.Foundation.Runs
open Piltover.Updates.State

namespace Operation

/-- An update with pts is pushed to the user: the call has something for the user, and does not raise
before that for a message that cannot be formatted. -/
def Announces (userId : Nat) : Operation → Prop
  | .sendMessage _ messages _ _ =>
    messages.raises = false ∧ ∃ item ∈ messages.items, item.1.ownerId = userId
  | .sendMessages messages _ _ =>
    messages.anyRaises = false ∧ ∃ item ∈ messages.items, item.1.ownerId = userId ∧ item.2 ≠ []
  | .editMessage _ messages => ∃ item ∈ messages.pushedFirst, item.1.ownerId = userId
  | .pinMessages _ messages => ∃ item ∈ messages.items, item.1.ownerId = userId ∧ item.2 ≠ []
  | .deleteMessages _ messages => userId ∈ messages.keys
  | .updateReadHistoryInbox peer _ _ broadcast => peer.ownerId = userId ∧ broadcast = true

/-- No message that is pushed to the user has a `random_id`. -/
def Plain (userId : Nat) : Operation → Prop
  | .sendMessage _ messages _ _ => messages.raises = false →
    ∀ item ∈ messages.items, item.1.ownerId = userId → item.2.truthyRandomId = none
  | .sendMessages messages _ _ => messages.anyRaises = false →
    ∀ item ∈ messages.items, item.1.ownerId = userId →
      ∀ message ∈ item.2, message.truthyRandomId = none
  | _ => True

/-- The user's pts are raised and nothing is pushed to the user. -/
def Silent (userId : Nat) : Operation → Prop
  | .sendMessage _ messages _ _ =>
    messages.raises = true ∧ ∃ item ∈ messages.items, item.1.ownerId = userId
  | .sendMessages messages _ _ =>
    messages.anyRaises = true ∧ ∃ item ∈ messages.items, item.1.ownerId = userId ∧ item.2 ≠ []
  | .editMessage _ messages =>
    ∃ item ∈ messages.items, item ∉ messages.pushedFirst ∧ item.1.ownerId = userId
  | .updateReadHistoryInbox peer _ _ broadcast => peer.ownerId = userId ∧ broadcast = false
  | _ => False

end Operation

/-- No message that is pushed to the user has a `random_id`, and after an operation that raises the
user's pts in silence nothing more is pushed to the user. -/
def PlainRun (userId : Nat) (ops : List Operation) : Prop :=
  (∀ op ∈ ops, op.Plain userId) ∧
    ops.Pairwise fun earlier later => earlier.Silent userId → ¬ later.Announces userId

/-- What is pushed while State.pts goes from `before` to `after`: in order and in between, and a chain
for a client that is at `before`, if the messages are plain. -/
structure Tells (plain : Prop) (before after : Int) (l : List (Int × Int)) : Prop where
  raises : before ≤ after
  ascending : l.Pairwise fun a b => a.1 ≤ b.1
  within : ∀ pair ∈ l, before ≤ pair.1 ∧ pair.1 ≤ after
  chains : l ≠ [] → ∀ told ≤ before, Chains told l ↔ told = before ∧ plain
  reaches : l ≠ [] → ∀ told, reach told l = after

namespace Tells

variable {plain : Prop} {before after : Int}

theorem nothing (raises : before ≤ after) : Tells plain before after [] where
  raises := raises
  ascending := List.Pairwise.nil
  within := by
    intro pair listed
    cases listed
  chains := fun something => absurd rfl something
  reaches := fun something => absurd rfl something

theorem one {ptsCount : Int} (counted : 0 ≤ ptsCount) (counts : before + ptsCount = after)
    (holds : plain) : Tells plain before after [(after, ptsCount)] where
  raises := by omega
  ascending := List.pairwise_singleton _ _
  within := by
    intro pair listed
    cases List.mem_singleton.mp listed
    constructor <;> omega
  chains := by
    intro _ told behind
    simp only [chains_cons, chains_nil, and_true]
    constructor
    · intro chained
      exact ⟨by omega, holds⟩
    · rintro ⟨rfl, _⟩
      exact counts
  reaches := fun _ _ => rfl

theorem append {more : Prop} {middle : Int} {l m : List (Int × Int)}
    (first : Tells plain before middle l) (second : Tells more middle after m)
    (something : l ≠ []) (rest : m = [] → middle = after ∧ more) :
    Tells (plain ∧ more) before after (l ++ m) where
  raises := first.raises.trans second.raises
  ascending := by
    refine List.pairwise_append.mpr ⟨first.ascending, second.ascending, ?_⟩
    intro a inFirst b inSecond
    exact (first.within a inFirst).2.trans (second.within b inSecond).1
  within := by
    intro pair listed
    have := first.raises
    have := second.raises
    rcases List.mem_append.mp listed with inFirst | inSecond
    · have := first.within pair inFirst
      omega
    · have := second.within pair inSecond
      omega
  chains := by
    intro _ told behind
    rw [chains_append, first.chains something told behind, first.reaches something]
    by_cases ends : m = []
    · rw [ends]
      have := (rest ends).2
      simp only [chains_nil, this, and_true]
    · rw [second.chains ends middle (le_refl middle)]
      simp only [true_and, and_assoc]
  reaches := by
    intro _ told
    rw [reach_append, first.reaches something]
    by_cases ends : m = []
    · rw [ends]
      exact (rest ends).1
    · exact second.reaches ends middle

end Tells

theorem Tells.congr {plain plain' : Prop} {before after : Int} {l : List (Int × Int)}
    (tells : Tells plain before after l) (same : plain ↔ plain') : Tells plain' before after l :=
  { tells with
    chains := fun something told behind =>
      (tells.chains something told behind).trans (and_congr_right fun _ => same) }

theorem carries_newMessageUpdates (message : MessageRef) (newPts ptsCount : Int) :
    (newMessageUpdates message newPts ptsCount).filterMap TLUpdate.carries =
      [(newPts, ptsCount)] := by
  rw [newMessageUpdates]
  cases message.truthyRandomId <;> rfl

/-- Two pts for a message with a `random_id`, and one of them is in the update. -/
theorem newMessage_tells (message : MessageRef) (before : Int) :
    Tells (message.truthyRandomId = none) before (before + message.ptsCount)
      [(before + message.ptsCount, 1)] := by
  cases random : message.truthyRandomId with
  | none =>
    have one : message.ptsCount = 1 := by rw [MessageRef.ptsCount, random]; rfl
    exact .one (by decide) (by rw [one]) rfl
  | some randomId =>
    have two : message.ptsCount = 2 := by rw [MessageRef.ptsCount, random]; rfl
    rw [two]
    refine ⟨by omega, List.pairwise_singleton _ _, ?_, ?_, fun _ _ => rfl⟩
    · intro pair listed
      cases List.mem_singleton.mp listed
      constructor <;> omega
    · intro _ told behind
      constructor
      · rintro ⟨gap, _⟩
        omega
      · rintro ⟨_, plain⟩
        cases plain

private theorem carries_sendMessagesUpdates_ne_nil {messages : List MessageRef}
    (something : messages ≠ []) (before : Int) :
    (sendMessagesUpdates before messages).filterMap TLUpdate.carries ≠ [] := by
  cases messages with
  | nil => exact absurd rfl something
  | cons message rest =>
    rw [sendMessagesUpdates, List.filterMap_append, carries_newMessageUpdates]
    exact List.cons_ne_nil _ _

theorem sendMessages_tells (messages : List MessageRef) (before : Int) :
    Tells (∀ message ∈ messages, message.truthyRandomId = none) before
      (before + ptsCounts messages)
      ((sendMessagesUpdates before messages).filterMap TLUpdate.carries) := by
  induction messages generalizing before with
  | nil => exact .nothing (by simp [ptsCounts])
  | cons message rest ih =>
    have total : before + ptsCounts (message :: rest) =
        before + message.ptsCount + ptsCounts rest := by
      rw [ptsCounts_cons, add_assoc]
    rw [sendMessagesUpdates, List.filterMap_append, carries_newMessageUpdates, total]
    have both := (newMessage_tells message before).append (ih (before + message.ptsCount))
      (List.cons_ne_nil _ _) (fun nothing => by
        by_cases ends : rest = []
        · subst ends
          simp [ptsCounts]
        · exact absurd nothing (carries_sendMessagesUpdates_ne_nil ends _))
    exact both.congr (by rw [List.forall_mem_cons])

theorem pinMessages_tells (item : Peer × List MessageRef) (before : Int) :
    Tells True before (before + item.2.length)
      ((pinMessagesPart item).announces (before + item.2.length)) := by
  have total := length_idsWhere item.2
  simp only [Part.announces, pinMessagesPart, List.flatMap_singleton, pinnedUpdates, ← total]
  generalize idsWhere true item.2 = pinned
  generalize idsWhere false item.2 = unpinned
  -- The pinned messages come first, and the others count up to the new pts.
  have middle : before + ((pinned.length : Int) + unpinned.length) - unpinned.length =
      before + pinned.length := by omega
  have first : Tells True before (before + pinned.length)
      [(before + (pinned.length : Int), (pinned.length : Int))] :=
    .one (Int.natCast_nonneg _) rfl trivial
  have second : Tells True (before + pinned.length)
      (before + ((pinned.length : Int) + unpinned.length))
      [(before + ((pinned.length : Int) + unpinned.length), (unpinned.length : Int))] :=
    .one (Int.natCast_nonneg _) (add_assoc _ _ _) trivial
  rw [middle]
  by_cases anyPinned : pinned.length ≠ 0 <;> by_cases anyOther : unpinned.length ≠ 0
  · rw [if_pos anyPinned, if_pos anyOther]
    have both := first.append second (List.cons_ne_nil _ _) fun nothing =>
      absurd nothing (List.cons_ne_nil _ _)
    exact both.congr and_self_iff
  · rw [if_pos anyPinned, if_neg anyOther, not_not.mp anyOther, Nat.cast_zero, add_zero]
    exact first
  · rw [if_neg anyPinned, if_pos anyOther, not_not.mp anyPinned, Nat.cast_zero, zero_add]
    exact .one (Int.natCast_nonneg _) rfl trivial
  · rw [if_neg anyPinned, if_neg anyOther, not_not.mp anyPinned, not_not.mp anyOther]
    exact .nothing (by omega)

/-- What an operation does to a user whose State.pts it takes from `pts` to `newPts`. -/
structure Does (op : Operation) (userId : Nat) (pts newPts : Int) (l : List (Int × Int)) : Prop
    extends Tells (op.Plain userId) pts newPts l where
  announces : l ≠ [] ↔ op.Announces userId
  quiet : l = [] → newPts = pts ∧ ¬ op.Silent userId ∨ op.Silent userId ∧ pts < newPts

theorem ByPeer.eq_of_owner {β : Type} (messages : ByPeer β) {item other : Peer × β}
    (listed : item ∈ messages.items) (listed' : other ∈ messages.items)
    (same : other.1.ownerId = item.1.ownerId) : other = item :=
  List.inj_on_of_nodup_map messages.owners listed' listed same

namespace Operation

variable {op : Operation} {userId : Nat}

theorem not_silent_of_announces (loud : op.Announces userId) : ¬ op.Silent userId := by
  cases op with
  | updateReadHistoryInbox peer maxId unreadCount broadcast =>
    rintro ⟨_, silent⟩
    rw [loud.2] at silent
    cases silent
  | sendMessage | sendMessages =>
    rintro ⟨raises, _⟩
    rw [loud.1] at raises
    cases raises
  | editMessage editor messages =>
    obtain ⟨item, pushed, own⟩ := loud
    rintro ⟨other, listed, later, own'⟩
    have here : item ∈ messages.items := (List.takeWhile_sublist _).mem pushed
    rw [messages.eq_of_owner here listed (own'.trans own.symm)] at later
    exact later pushed
  | _ => exact not_false

theorem plain_of_not_announces (quiet : ¬ op.Announces userId) : op.Plain userId := by
  cases op with
  | sendMessage currentUserId messages ignoreCurrent authId =>
    intro fine item listed own
    exact absurd ⟨fine, item, listed, own⟩ quiet
  | sendMessages messages user prependExisting =>
    intro fine item listed own message mem
    exact absurd ⟨fine, item, listed, own, List.ne_nil_of_mem mem⟩ quiet
  | _ => trivial

end Operation

theorem ByPeer.something_iff {β : Type} (messages : ByPeer (List β)) {item : Peer × List β}
    {userId : Nat} (listed : item ∈ messages.items) (own : item.1.ownerId = userId) :
    (∃ other ∈ messages.items, other.1.ownerId = userId ∧ other.2 ≠ []) ↔ item.2 ≠ [] := by
  constructor
  · rintro ⟨other, listed', own', something⟩
    rw [← messages.eq_of_owner listed listed' (own'.trans own.symm)]
    exact something
  · intro something
    exact ⟨item, listed, own, something⟩

section Step

variable {server after : Server} {op : Operation} {userId : Nat} {pts : Int}

private theorem does_one {op : Operation} {newPts ptsCount : Int}
    (tells : Tells (op.Plain userId) pts newPts [(newPts, ptsCount)])
    (loud : op.Announces userId) : Does op userId pts newPts [(newPts, ptsCount)] where
  toTells := tells
  announces := iff_of_true (List.cons_ne_nil _ _) loud
  quiet := fun nothing => absurd nothing (List.cons_ne_nil _ _)

private theorem does_nothing {op : Operation} {newPts : Int} (further : pts < newPts)
    (silent : op.Silent userId) : Does op userId pts newPts [] where
  toTells := .nothing further.le
  announces := iff_of_false (fun something => something rfl) fun loud =>
    Operation.not_silent_of_announces loud silent
  quiet := fun _ => .inr ⟨silent, further⟩

theorem sendMessage_does {currentUserId : Option Nat} {messages : ByPeer MessageRef}
    {ignoreCurrent : Bool} {authId : Option Nat} {item : Peer × MessageRef}
    (listed : item ∈ messages.items) (own : item.1.ownerId = userId) :
    Does (.sendMessage currentUserId messages ignoreCurrent authId) userId pts
      (pts + item.2.ptsCount)
      ((sendMessagePart messages.raises currentUserId ignoreCurrent authId item).announces
        (pts + item.2.ptsCount)) := by
  have counted := item.2.ptsCount_pos
  rw [Part.announces, sendMessagePart]
  cases fine : messages.raises with
  | true => exact does_nothing (by omega) ⟨fine, item, listed, own⟩
  | false =>
    have plain : item.2.truthyRandomId = none ↔
        (Operation.sendMessage currentUserId messages ignoreCurrent authId).Plain userId := by
      constructor
      · intro none _ other listed' own'
        rw [messages.eq_of_owner listed listed' (own'.trans own.symm)]
        exact none
      · intro all
        exact all fine item listed own
    dsimp only
    rw [if_neg Bool.false_ne_true, List.flatMap_singleton, carries_newMessageUpdates]
    exact does_one ((newMessage_tells item.2 pts).congr plain) ⟨fine, item, listed, own⟩

theorem sendMessages_does {messages : ByPeer (List MessageRef)} {user : Option Nat}
    {prependExisting : List MessageRef} {item : Peer × List MessageRef}
    (listed : item ∈ messages.items) (own : item.1.ownerId = userId) :
    Does (.sendMessages messages user prependExisting) userId pts (pts + ptsCounts item.2)
      ((sendMessagesPart messages.anyRaises item).announces (pts + ptsCounts item.2)) := by
  have some : (∃ other ∈ messages.items, other.1.ownerId = userId ∧ other.2 ≠ []) ↔ item.2 ≠ [] :=
    messages.something_iff listed own
  by_cases none : item.2 = []
  · have unmoved : pts + ptsCounts item.2 = pts := by
      rw [none]
      exact add_zero pts
    have quiet : (sendMessagesPart messages.anyRaises item).announces (pts + ptsCounts item.2) =
        [] := by
      rw [Part.announces, sendMessagesPart, none]
      cases messages.anyRaises <;> rfl
    rw [quiet, unmoved]
    refine ⟨.nothing (le_refl pts), ?_, fun _ => .inl ⟨rfl, fun silent => some.mp silent.2 none⟩⟩
    exact iff_of_false (fun something => something rfl) fun loud => some.mp loud.2 none
  · have further := ptsCounts_pos none
    simp only [Part.announces, sendMessagesPart, add_sub_cancel_right]
    cases fine : messages.anyRaises with
    | true => exact does_nothing (by omega) ⟨fine, some.mpr none⟩
    | false =>
      have plain : (∀ message ∈ item.2, message.truthyRandomId = Option.none) ↔
          (Operation.sendMessages messages user prependExisting).Plain userId := by
        constructor
        · intro none _ other listed' own'
          rw [messages.eq_of_owner listed listed' (own'.trans own.symm)]
          exact none
        · intro all
          exact all fine item listed own
      have pushed := carries_sendMessagesUpdates_ne_nil none pts
      rw [if_neg Bool.false_ne_true, List.flatMap_singleton]
      exact ⟨(sendMessages_tells item.2 pts).congr plain,
        iff_of_true pushed ⟨fine, some.mpr none⟩, fun nothing => absurd nothing pushed⟩

theorem deleteMessages_does {currentUserId : Option Nat} {messages : OrderedDict Nat (List Nat)}
    {item : Sigma fun _ : Nat => List Nat} (listed : item ∈ messages.entries) :
    Does (.deleteMessages currentUserId messages) item.1 pts (pts + item.2.length)
      ((deleteMessagesPart item).announces (pts + item.2.length)) :=
  does_one (.one (Int.natCast_nonneg _) rfl trivial) (List.mem_map.mpr ⟨item, listed, rfl⟩)

theorem editMessage_does {editor : Nat} {messages : ByPeer MessageRef} {item : Peer × MessageRef}
    (listed : item ∈ messages.items) :
    Does (.editMessage editor messages) item.1.ownerId pts (pts + 1)
      ((editMessagePart messages item).announces (pts + 1)) := by
  rw [Part.announces, editMessagePart]
  dsimp only
  by_cases pushed : item ∈ messages.pushedFirst
  · rw [if_pos pushed]
    exact does_one (.one (by decide) rfl trivial) ⟨item, pushed, rfl⟩
  · rw [if_neg pushed]
    exact does_nothing (Int.lt_succ pts) ⟨item, listed, pushed, rfl⟩

private theorem pinMessages_announces_eq_nil {item : Peer × List MessageRef} {newPts : Int} :
    (pinMessagesPart item).announces newPts = [] ↔ item.2 = [] := by
  have total := length_idsWhere item.2
  have empty : item.2 = [] ↔
      (idsWhere true item.2).length = 0 ∧ (idsWhere false item.2).length = 0 := by
    rw [← List.length_eq_zero_iff]
    omega
  rw [empty]
  simp only [Part.announces, pinMessagesPart, List.flatMap_singleton, pinnedUpdates]
  by_cases anyPinned : (idsWhere true item.2).length = 0 <;>
    by_cases anyOther : (idsWhere false item.2).length = 0 <;>
      simp [anyPinned, anyOther, TLUpdate.carries]

theorem pinMessages_does {pinner : Nat} {messages : ByPeer (List MessageRef)}
    {item : Peer × List MessageRef} (listed : item ∈ messages.items)
    (own : item.1.ownerId = userId) :
    Does (.pinMessages pinner messages) userId pts (pts + item.2.length)
      ((pinMessagesPart item).announces (pts + item.2.length)) := by
  have loud : (Operation.pinMessages pinner messages).Announces userId ↔ item.2 ≠ [] :=
    messages.something_iff listed own
  refine ⟨pinMessages_tells item pts, ?_, ?_⟩
  · rw [loud, Ne, pinMessages_announces_eq_nil]
  · intro nothing
    refine .inl ⟨?_, not_false⟩
    rw [pinMessages_announces_eq_nil.mp nothing]
    exact add_zero pts

theorem updateReadHistoryInbox_does {peer : Peer} {maxId unreadCount : Nat} {broadcast : Bool} :
    Does (.updateReadHistoryInbox peer maxId unreadCount broadcast) peer.ownerId pts (pts + 1)
      ((readHistoryInboxPart peer maxId unreadCount broadcast).announces (pts + 1)) := by
  cases broadcast with
  | true => exact does_one (.one (by decide) rfl trivial) ⟨rfl, rfl⟩
  | false => exact does_nothing (Int.lt_succ pts) ⟨rfl, rfl⟩

theorem part_does {part : Part} (listed : part ∈ op.parts) :
    Does op part.userId pts (pts + part.ptsCount) (part.announces (pts + part.ptsCount)) := by
  cases op with
  | updateReadHistoryInbox peer maxId unreadCount broadcast =>
    cases List.mem_singleton.mp listed
    exact updateReadHistoryInbox_does
  | sendMessage =>
    obtain ⟨item, mem, rfl⟩ := List.mem_map.mp listed
    exact sendMessage_does mem rfl
  | sendMessages =>
    obtain ⟨item, mem, rfl⟩ := List.mem_map.mp listed
    exact sendMessages_does mem rfl
  | deleteMessages =>
    obtain ⟨item, mem, rfl⟩ := List.mem_map.mp listed
    exact deleteMessages_does mem
  | editMessage =>
    obtain ⟨item, mem, rfl⟩ := List.mem_map.mp listed
    exact editMessage_does mem
  | pinMessages =>
    obtain ⟨item, mem, rfl⟩ := List.mem_map.mp listed
    exact pinMessages_does mem rfl

theorem ignores_of_no_part (nobody : ∀ part ∈ op.parts, part.userId ≠ userId) :
    ¬ op.Announces userId ∧ ¬ op.Silent userId := by
  cases op with
  | sendMessage =>
    have other := fun item mem => nobody _ (List.mem_map.mpr ⟨item, mem, rfl⟩)
    exact ⟨fun ⟨_, item, mem, own⟩ => other item mem own,
      fun ⟨_, item, mem, own⟩ => other item mem own⟩
  | sendMessages =>
    have other := fun item mem => nobody _ (List.mem_map.mpr ⟨item, mem, rfl⟩)
    exact ⟨fun ⟨_, item, mem, own, _⟩ => other item mem own,
      fun ⟨_, item, mem, own, _⟩ => other item mem own⟩
  | editMessage =>
    have other := fun item mem => nobody _ (List.mem_map.mpr ⟨item, mem, rfl⟩)
    exact ⟨fun ⟨item, pushed, own⟩ => other item ((List.takeWhile_sublist _).mem pushed) own,
      fun ⟨item, mem, _, own⟩ => other item mem own⟩
  | pinMessages =>
    refine ⟨?_, not_false⟩
    rintro ⟨item, mem, own, _⟩
    exact nobody _ (List.mem_map.mpr ⟨item, mem, rfl⟩) own
  | deleteMessages =>
    refine ⟨?_, not_false⟩
    intro listed
    obtain ⟨item, mem, own⟩ := List.mem_map.mp listed
    exact nobody _ (List.mem_map.mpr ⟨item, mem, rfl⟩) own
  | updateReadHistoryInbox =>
    have other := nobody _ (List.mem_singleton.mpr rfl)
    exact ⟨fun loud => other loud.1, fun silent => other silent.1⟩

theorem step_does (known : server.statePts userId = some pts)
    (happens : server.step op = some after) :
    ∃ newPts l, after.statePts userId = some newPts ∧
      after.announced userId = server.announced userId ++ l ∧ Does op userId pts newPts l := by
  rcases step_parts known happens with ⟨part, listed, rfl, done⟩ | ⟨nobody, untouched⟩
  · exact ⟨_, _, done.statePts, done.announced, part_does listed⟩
  · obtain ⟨quiet, loud⟩ := ignores_of_no_part nobody
    refine ⟨pts, [], untouched.statePts.trans known, ?_, .nothing (le_refl pts), ?_, ?_⟩
    · rw [untouched.announced, List.append_nil]
    · exact iff_of_false (fun something => something rfl) quiet
    · exact fun _ => .inl ⟨rfl, loud⟩

end Step

section Run

variable {server after : Server} {userId : Nat} {pts told : Int} {ops : List Operation}

private theorem plainRun_cons {op : Operation} :
    PlainRun userId (op :: ops) ↔ op.Plain userId ∧
      (∀ later ∈ ops, op.Silent userId → ¬ later.Announces userId) ∧ PlainRun userId ops := by
  rw [PlainRun, PlainRun, List.forall_mem_cons, List.pairwise_cons]
  tauto

/-- After an operation that pushes nothing, it is up to the later ones: a silent one leaves the client
behind State.pts for good. -/
private theorem plainRun_cons_of_quiet {op : Operation} {newPts : Int} (behind : told ≤ pts)
    (quiet : ¬ op.Announces userId)
    (effect : newPts = pts ∧ ¬ op.Silent userId ∨ op.Silent userId ∧ pts < newPts) :
    PlainRun userId ops ∧ (told = newPts ∨ ∀ later ∈ ops, ¬ later.Announces userId) ↔
      PlainRun userId (op :: ops) ∧
        (told = pts ∨ ∀ later ∈ op :: ops, ¬ later.Announces userId) := by
  have plain := Operation.plain_of_not_announces quiet
  rw [plainRun_cons, List.forall_mem_cons]
  rcases effect with ⟨rfl, loud⟩ | ⟨silent, further⟩
  · constructor
    · rintro ⟨run, ended⟩
      exact ⟨⟨plain, fun _ _ silent => absurd silent loud, run⟩, ended.imp_right (.intro quiet)⟩
    · rintro ⟨⟨_, _, run⟩, ended⟩
      exact ⟨run, ended.imp_right And.right⟩
  · constructor
    · rintro ⟨run, here | ended⟩
      · omega
      · exact ⟨⟨plain, fun later listed _ => ended later listed, run⟩, .inr ⟨quiet, ended⟩⟩
    · rintro ⟨⟨_, ended, run⟩, _⟩
      exact ⟨run, .inr fun later listed => ended later listed silent⟩

private theorem plainRun_cons_of_loud {op : Operation} (loud : op.Announces userId) :
    (told = pts ∧ op.Plain userId) ∧ PlainRun userId ops ↔
      PlainRun userId (op :: ops) ∧
        (told = pts ∨ ∀ later ∈ op :: ops, ¬ later.Announces userId) := by
  have spoken := Operation.not_silent_of_announces loud
  rw [plainRun_cons, List.forall_mem_cons]
  constructor
  · rintro ⟨⟨here, plain⟩, run⟩
    exact ⟨⟨plain, fun _ _ silent => absurd silent spoken, run⟩, .inl here⟩
  · rintro ⟨⟨plain, _, run⟩, here | ⟨quiet, _⟩⟩
    · exact ⟨⟨here, plain⟩, run⟩
    · exact absurd loud quiet

/-- A client that has been told of `told` goes on with what a run pushes exactly when the run is
plain and the client is at State.pts, or is not pushed anything. -/
private theorem run_chains (known : server.statePts userId = some pts) (behind : told ≤ pts)
    (run : runFrom Server.step server ops = some after) :
    ∃ l, after.announced userId = server.announced userId ++ l ∧
      (Chains told l ↔
        PlainRun userId ops ∧ (told = pts ∨ ∀ op ∈ ops, ¬ op.Announces userId)) := by
  induction ops generalizing server pts told with
  | nil =>
    cases run
    refine ⟨[], (List.append_nil _).symm, iff_of_true trivial ⟨⟨?_, .nil⟩, .inr ?_⟩⟩
    · intro op listed
      cases listed
    · intro op listed
      cases listed
  | cons op ops ih =>
    obtain ⟨next, happens, rest⟩ := runFrom_cons_some.mp run
    obtain ⟨newPts, l, raised, pushed, does⟩ := step_does known happens
    by_cases nothing : l = []
    · have quiet : ¬ op.Announces userId := fun loud => does.announces.mpr loud nothing
      obtain ⟨m, more, later⟩ := ih raised (behind.trans does.raises) rest
      refine ⟨m, ?_, later.trans (plainRun_cons_of_quiet behind quiet (does.quiet nothing))⟩
      rw [more, pushed, nothing, List.append_nil]
    · have loud := does.announces.mp nothing
      obtain ⟨m, more, later⟩ := ih raised (le_refl newPts) rest
      refine ⟨l ++ m, ?_, ?_⟩
      · rw [more, pushed, List.append_assoc]
      · have rest : Chains newPts m ↔ PlainRun userId ops := later.trans (and_iff_left (.inl rfl))
        rw [chains_append, does.chains nothing told behind, does.reaches nothing, rest]
        exact plainRun_cons_of_loud loud

private theorem run_ascending (known : server.statePts userId = some pts)
    (sorted : (server.announced userId).Pairwise fun a b => a.1 ≤ b.1)
    (upTo : ∀ pair ∈ server.announced userId, pair.1 ≤ pts)
    (run : runFrom Server.step server ops = some after) :
    (after.announced userId).Pairwise fun a b => a.1 ≤ b.1 := by
  induction ops generalizing server pts with
  | nil =>
    cases run
    exact sorted
  | cons op ops ih =>
    obtain ⟨next, happens, rest⟩ := runFrom_cons_some.mp run
    obtain ⟨newPts, l, raised, pushed, does⟩ := step_does known happens
    refine ih raised ?_ ?_ rest
    · rw [pushed]
      refine List.pairwise_append.mpr ⟨sorted, does.ascending, ?_⟩
      intro a old b new
      exact (upTo a old).trans (does.within b new).1
    · intro pair listed
      rw [pushed] at listed
      rcases List.mem_append.mp listed with old | new
      · exact (upTo pair old).trans does.raises
      · exact (does.within pair new).2

/-- The updates that a user is pushed, in the order of their pts, go on from State.pts without a gap
exactly when no message pushed to the user has a `random_id` and nothing is pushed to the user after
a read that is not broadcast, or a message that cannot be formatted. -/
theorem pushed_chain_iff (statePts : Counters) (ops : List Operation) (server : Server)
    (run : runFrom Server.step (.start statePts) ops = some server) (userId : Nat) (pts : Int)
    (known : statePts userId = some pts) :
    Chains pts (inOrder (server.announced userId)) ↔ PlainRun userId ops := by
  have known : (Server.start statePts).statePts userId = some pts := known
  have fresh : ∀ pair ∈ (Server.start statePts).announced userId, pair.1 ≤ pts := by
    intro pair listed
    cases listed
  have ascending := run_ascending known .nil fresh run
  obtain ⟨l, pushed, chains⟩ := run_chains known (le_refl pts) run
  have all : server.announced userId = l := pushed
  rw [inOrder_eq ascending, all, chains]
  exact and_iff_left (.inl rfl)

end Run

/-- A message of user 1 to user 2, with the `random_id` on the side of user 1. -/
def dialog (randomId : Option Int) : ByPeer MessageRef :=
  ⟨[(⟨1, 1⟩, ⟨⟨5, 3⟩, randomId, false, false⟩), (⟨2, 2⟩, ⟨⟨6, 3⟩, none, false, false⟩)],
    (by decide : [1, 2].Nodup)⟩

def allAtTen : Counters := fun _ => some 10

/-- User 1 sends a message, reads the dialog and deletes the message. -/
def sendReadDelete (randomId : Option Int) : List Operation :=
  [.sendMessage (some 1) (dialog randomId) true (some 8),
    .updateReadHistoryInbox ⟨1, 1⟩ 5 0 true,
    .deleteMessages (some 1) ⟨[⟨1, [5]⟩, ⟨2, [6]⟩], (by decide : [1, 2].Nodup)⟩]

private theorem plainRun_sendReadDelete : PlainRun 1 (sendReadDelete none) := by
  have plain : ∀ item ∈ (dialog none).items, item.1.ownerId = 1 →
      item.2.truthyRandomId = none := by decide
  refine ⟨?_, ?_⟩
  · simp only [sendReadDelete, List.forall_mem_cons]
    exact ⟨fun _ => plain, trivial, trivial, List.forall_mem_nil _⟩
  · have loud : ∀ op ∈ sendReadDelete none, ¬ op.Silent 1 := by
      simp only [sendReadDelete, List.forall_mem_cons]
      exact ⟨fun silent => absurd silent.1 (by decide), fun silent => absurd silent.2 (by decide),
        not_false, List.forall_mem_nil _⟩
    exact List.pairwise_of_forall_mem_list fun op listed _ _ silent => absurd silent (loud op listed)

/-- Without a `random_id` the three updates for user 1 are at 11, 12 and 13. -/
theorem pushed_chain_iff_sendReadDelete : ∃ server,
    runFrom Server.step (.start allAtTen) (sendReadDelete none) = some server ∧
      Chains 10 (inOrder (server.announced 1)) :=
  ⟨_, rfl, (pushed_chain_iff allAtTen (sendReadDelete none) _ rfl 1 10 rfl).mpr
    plainRun_sendReadDelete⟩

/-- With one the first update for user 1 is at 12 and counts one. -/
theorem random_id_leaves_gap : ∃ server,
    runFrom Server.step (.start allAtTen) (sendReadDelete (some 7)) = some server ∧
      server.announced 1 = [(12, 1), (13, 1), (14, 1)] ∧
      ¬ Chains 10 (inOrder (server.announced 1)) :=
  ⟨_, rfl, rfl, by decide⟩

end Piltover.Updates.Manager
