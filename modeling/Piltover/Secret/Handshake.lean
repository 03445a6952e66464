/- source: piltover/app/handlers/messages/secret.py, piltover/db/models/encrypted_chat.py
   digest: Accepting and discarding one secret chat, in any order of the steps of both. -/

import Mathlib.Logic.Function.Basic
import Piltover.Failure
import Piltover.Foundation.Bytes
import Piltover.Foundation.Runs
import Piltover.SafePrime

set_option autoImplicit false

namespace Piltover.Secret

open Piltover.Foundation
open Piltover.Foundation.Runs

def checkGAOrB (bytes : Bytes) : Bool :=
  let gAOrB := bytes.toNat
  decide (1 < gAOrB ∧ gAOrB < currentDhPrime - 1) &&
    decide (2 ^ (2048 - 64) < gAOrB ∧ gAOrB < currentDhPrime - 2 ^ (2048 - 64))

/-- The user and the authorization that a request comes from. -/
structure Session where
  userId : Nat
  authId : Nat
  deriving DecidableEq, Repr

structure EncryptedChat where
  id : Int
  accessHash : Int
  createdAt : Int
  fromUserId : Nat
  fromSessId : Nat
  toUserId : Nat
  toSessId : Option Nat
  gA : Bytes
  gB : Bytes
  keyFp : Option Int
  discarded : Bool
  historyDeleted : Bool
  deriving DecidableEq, Repr

inductive TLEncryptedChat
  | discarded (id : Int) (historyDeleted : Bool)
  | toFormat (id accessHash date : Int) (adminId participantId adminSessId : Nat)
      (participantSessId : Option Nat) (gA : Bytes) (gB : Option Bytes) (keyFingerprint : Option Int)
  deriving DecidableEq, Repr

def EncryptedChat.toTl (self : EncryptedChat) : TLEncryptedChat :=
  if self.discarded then .discarded self.id self.historyDeleted
  else .toFormat self.id self.accessHash self.createdAt self.fromUserId self.toUserId
    self.fromSessId self.toSessId self.gA (if self.gB.isEmpty then none else some self.gB)
    self.keyFp

structure AcceptEncryption where
  chatId : Int
  accessHash : Int
  gB : Bytes
  keyFingerprint : Int
  deriving DecidableEq, Repr

structure DiscardEncryption where
  chatId : Int
  deleteHistory : Bool
  deriving DecidableEq, Repr

namespace EncryptedChat

variable (chat : EncryptedChat)

/-- The row that `accept_encryption` looks for. -/
def accepts (s : Session) (r : AcceptEncryption) : Bool :=
  chat.id == r.chatId && chat.accessHash == r.accessHash && chat.toUserId == s.userId

/-- The checks on the locked row. -/
def checkAccept : Except Failure Unit := do
  require chat.toSessId.isNone (.rpc 400 "ENCRYPTION_ALREADY_ACCEPTED")
  require (!chat.discarded) (.rpc 400 "ENCRYPTION_ALREADY_DECLINED")

def saveAccept (s : Session) (r : AcceptEncryption) : EncryptedChat :=
  { chat with gB := r.gB, toSessId := some s.authId, keyFp := some r.keyFingerprint }

def requestedBy (s : Session) : Bool := chat.fromUserId == s.userId && chat.fromSessId == s.authId

def checkDiscard (s : Session) (r : DiscardEncryption) : Except Failure Unit := do
  require ((chat.requestedBy s || chat.toUserId == s.userId) && chat.id == r.chatId)
    (.rpc 400 "ENCRYPTION_ID_INVALID")
  require (!(chat.toUserId == s.userId && chat.toSessId.any fun sess => sess != s.authId))
    (.rpc 400 "ENCRYPTION_ALREADY_ACCEPTED")
  require (!chat.discarded) (.rpc 400 "ENCRYPTION_ALREADY_DECLINED")

def saveDiscard (r : DiscardEncryption) : EncryptedChat :=
  { chat with discarded := true, historyDeleted := r.deleteHistory }

end EncryptedChat

/-- A request between its checks and the end of its transaction. -/
inductive Stage
  | accepting (s : Session) (r : AcceptEncryption)
  | discarding (s : Session) (r : DiscardEncryption)
  deriving DecidableEq, Repr

/-- A request that has ended. -/
inductive Entry
  | accept (s : Session) (r : AcceptEncryption) (answer : Except Failure TLEncryptedChat)
  | discard (s : Session) (r : DiscardEncryption) (answer : Except Failure TLEncryptedChat)

/-- The row, the request that has locked it, the requests under way, and those that have ended. -/
structure Handshake where
  chat : EncryptedChat
  lock : Option Nat
  calls : Nat → Option Stage
  log : List Entry

/-- The first half of a request reads, the second writes. A request that is refused has no second
half. `authorized` tells if the authorization of the request still exists. -/
inductive Event
  | accept (call : Nat) (s : Session) (r : AcceptEncryption)
  | saveAccept (call : Nat) (authorized : Bool)
  | discard (call : Nat) (s : Session) (r : DiscardEncryption)
  | saveDiscard (call : Nat)

namespace Handshake

variable (h : Handshake)

def ended (entry : Entry) : Handshake := { h with log := h.log ++ [entry] }

def goesOn (call : Nat) (stage : Stage) : Handshake :=
  { h with calls := Function.update h.calls call (some stage) }

def leaves (call : Nat) (entry : Entry) : Handshake :=
  { h with calls := Function.update h.calls call none, log := h.log ++ [entry] }

-- The row is selected for update, so that another request that has locked it is waited for.
def accept (call : Nat) (s : Session) (r : AcceptEncryption) : Option Handshake :=
  if !checkGAOrB r.gB then
    some (h.ended (.accept s r (.error (.rpc 400 "DH_G_B_INVALID"))))
  else if !h.chat.accepts s r then
    some (h.ended (.accept s r (.error (.rpc 400 "CHAT_ID_INVALID"))))
  else if h.lock.isSome then none
  else
    match h.chat.checkAccept with
    | .error failure => some (h.ended (.accept s r (.error failure)))
    | .ok () => some { h.goesOn call (.accepting s r) with lock := some call }

def saveAccept (call : Nat) (authorized : Bool) : Option Handshake :=
  match h.calls call with
  | some (.accepting s r) =>
    if authorized then
      let chat := h.chat.saveAccept s r
      some { h.leaves call (.accept s r (.ok chat.toTl)) with chat := chat, lock := none }
    else some { h.leaves call (.accept s r (.error .other)) with lock := none }
  | _ => none

-- Nothing is locked here.
def discard (call : Nat) (s : Session) (r : DiscardEncryption) : Option Handshake :=
  match h.chat.checkDiscard s r with
  | .error failure => some (h.ended (.discard s r (.error failure)))
  | .ok () => some (h.goesOn call (.discarding s r))

def saveDiscard (call : Nat) : Option Handshake :=
  match h.calls call with
  | some (.discarding s r) =>
    if h.lock.isSome then none
    else some { h.leaves call (.discard s r (.ok (.discarded r.chatId r.deleteHistory))) with
      chat := h.chat.saveDiscard r }
  | _ => none

/-- A request takes a number that no request under way has. -/
def step (h : Handshake) : Event → Option Handshake
  | .accept call s r => if (h.calls call).isSome then none else h.accept call s r
  | .saveAccept call authorized => h.saveAccept call authorized
  | .discard call s r => if (h.calls call).isSome then none else h.discard call s r
  | .saveDiscard call => h.saveDiscard call

end Handshake

/-- The chat as `request_encryption` creates it, without any request on it. -/
structure Fresh (h : Handshake) : Prop where
  unaccepted : h.chat.toSessId = none
  undiscarded : h.chat.discarded = false
  unlocked : h.lock = none
  idle : ∀ call, h.calls call = none
  silent : h.log = []

namespace Entry

/-- The session and the request that have accepted the chat. -/
def accepted : Entry → Option (Session × AcceptEncryption)
  | .accept s r (.ok _) => some (s, r)
  | _ => none

def discarded : Entry → Option Session
  | .discard s _ (.ok _) => some s
  | _ => none

end Entry

/-- What the two sides rely on. -/
structure Agreed (h : Handshake) : Prop where
  once : (h.log.filterMap Entry.accepted).length ≤ 1
  stored : ∀ a ∈ h.log.filterMap Entry.accepted,
    h.chat.toSessId = some a.1.authId ∧ h.chat.gB = a.2.gB ∧ h.chat.keyFp = some a.2.keyFingerprint
  declined : h.log.Pairwise fun earlier later =>
    earlier.discarded.isSome → later.accepted = none

/-- After a session has accepted, it and the requester alone discard, and the other sessions of its
user are told so. -/
def Entry.Binds (chat : EncryptedChat) (earlier later : Entry) : Prop :=
  ∀ a, earlier.accepted = some a →
    (∀ s, later.discarded = some s → chat.requestedBy s ∨ s.authId = a.1.authId) ∧
    ∀ s r answer, later = .discard s r answer → r.chatId = chat.id → s.userId = chat.toUserId →
      s.authId ≠ a.1.authId → answer = .error (.rpc 400 "ENCRYPTION_ALREADY_ACCEPTED")

def Bound (h : Handshake) : Prop := h.log.Pairwise (Entry.Binds h.chat)

/-- No other session of the recipient is between its check and its discarding when a session
accepts. -/
def Undisturbed (h : Handshake) : Event → Prop
  | .saveAccept call _ => ∀ s r, h.calls call = some (.accepting s r) →
      ∀ other t q, h.calls other = some (.discarding t q) → t.userId = h.chat.toUserId →
        t.authId = s.authId
  | _ => True

section Steps

variable {h h' : Handshake}

/-- What a step can do. -/
inductive Does (h : Handshake) (e : Event) (h' : Handshake) : Prop
  | refusedAccept (s : Session) (r : AcceptEncryption) (failure : Failure)
      (left : h' = h.ended (.accept s r (.error failure)))
  | refusedDiscard (s : Session) (r : DiscardEncryption) (failure : Failure)
      (checked : h.chat.checkDiscard s r = .error failure)
      (left : h' = h.ended (.discard s r (.error failure)))
  | locked (call : Nat) (s : Session) (r : AcceptEncryption) (unlocked : h.lock = none)
      (checked : h.chat.checkAccept = .ok ())
      (left : h' = { h.goesOn call (.accepting s r) with lock := some call })
  | accepted (call : Nat) (s : Session) (r : AcceptEncryption) (event : e = .saveAccept call true)
      (under : h.calls call = some (.accepting s r))
      (left : h' = { h.leaves call (.accept s r (.ok (h.chat.saveAccept s r).toTl)) with
        chat := h.chat.saveAccept s r, lock := none })
  | failed (call : Nat) (s : Session) (r : AcceptEncryption)
      (under : h.calls call = some (.accepting s r))
      (left : h' = { h.leaves call (.accept s r (.error .other)) with lock := none })
  | discarding (call : Nat) (s : Session) (r : DiscardEncryption)
      (checked : h.chat.checkDiscard s r = .ok ())
      (left : h' = h.goesOn call (.discarding s r))
  | discarded (call : Nat) (s : Session) (r : DiscardEncryption)
      (under : h.calls call = some (.discarding s r)) (unlocked : h.lock = none)
      (left : h' = { h.leaves call (.discard s r (.ok (.discarded r.chatId r.deleteHistory))) with
        chat := h.chat.saveDiscard r })

theorem does_of_accept {call : Nat} {s : Session} {r : AcceptEncryption}
    (happens : h.accept call s r = some h') : Does h (.accept call s r) h' := by
  unfold Handshake.accept at happens
  split at happens
  · exact .refusedAccept s r _ (Option.some.inj happens).symm
  · split at happens
    · exact .refusedAccept s r _ (Option.some.inj happens).symm
    · split at happens
      · cases happens
      · rename_i unlocked
        split at happens
        · exact .refusedAccept s r _ (Option.some.inj happens).symm
        · rename_i checked
          exact .locked call s r (by simpa using unlocked) checked (Option.some.inj happens).symm

theorem does_of_saveAccept {call : Nat} {authorized : Bool}
    (happens : h.saveAccept call authorized = some h') : Does h (.saveAccept call authorized) h' := by
  unfold Handshake.saveAccept at happens
  split at happens
  · rename_i s r under
    cases authorized with
    | true => exact .accepted call s r rfl under (Option.some.inj happens).symm
    | false => exact .failed call s r under (Option.some.inj happens).symm
  · cases happens

theorem does_of_discard {call : Nat} {s : Session} {r : DiscardEncryption}
    (happens : h.discard call s r = some h') : Does h (.discard call s r) h' := by
  unfold Handshake.discard at happens
  split at happens
  · rename_i failure checked
    exact .refusedDiscard s r failure checked (Option.some.inj happens).symm
  · rename_i checked
    exact .discarding call s r checked (Option.some.inj happens).symm

theorem does_of_saveDiscard {call : Nat} (happens : h.saveDiscard call = some h') : Does h (.saveDiscard call) h' := by
  unfold Handshake.saveDiscard at happens
  split at happens
  · rename_i s r under
    split at happens
    · cases happens
    · rename_i unlocked
      exact .discarded call s r under (by simpa using unlocked) (Option.some.inj happens).symm
  · cases happens

theorem does_of_step {e : Event} (happens : h.step e = some h') : Does h e h' := by
  cases e with
  | accept call s r =>
    simp only [Handshake.step] at happens
    split at happens
    · cases happens
    · exact does_of_accept happens
  | saveAccept call authorized => exact does_of_saveAccept happens
  | discard call s r =>
    simp only [Handshake.step] at happens
    split at happens
    · cases happens
    · exact does_of_discard happens
  | saveDiscard call => exact does_of_saveDiscard happens

end Steps

section Invariants

variable {h h' : Handshake} {e : Event}

/-- The row tells what has ended, and a locked row is neither accepted nor discarded. -/
structure Sound (h : Handshake) : Prop extends Agreed h where
  unaccepted : h.chat.toSessId = none → h.log.filterMap Entry.accepted = []
  remembered : ∀ entry ∈ h.log, entry.discarded.isSome → h.chat.discarded = true
  locked : ∀ call s r, h.calls call = some (.accepting s r) → h.lock = some call
  open_ : h.lock.isSome → h.chat.toSessId = none ∧ h.chat.discarded = false

theorem checkAccept_eq_ok {chat : EncryptedChat} :
    chat.checkAccept = .ok () ↔ chat.toSessId = none ∧ chat.discarded = false := by
  rw [EncryptedChat.checkAccept, check_bind_eq_ok, require_eq_ok, require_eq_ok,
    Option.isNone_iff_eq_none, Bool.not_eq_true']

theorem stage_update {calls : Nat → Option Stage} {call other : Nat} {stage : Stage}
    {new : Option Stage} (under : Function.update calls call new other = some stage) :
    (other = call ∧ new = some stage) ∨ (other ≠ call ∧ calls other = some stage) := by
  by_cases same : other = call
  · rw [same, Function.update_self] at under
    exact .inl ⟨same, under⟩
  · rw [Function.update_of_ne same] at under
    exact .inr ⟨same, under⟩

theorem Sound.ended (sound : Sound h) {entry : Entry} (chat : h'.chat = h.chat)
    (log : h'.log = h.log ++ [entry]) (unaccepted : entry.accepted = none)
    (undiscarded : entry.discarded = none)
    (locked : ∀ call s r, h'.calls call = some (.accepting s r) → h'.lock = some call)
    (open_ : h'.lock.isSome → h.lock.isSome) : Sound h' := by
  have accepts : h'.log.filterMap Entry.accepted = h.log.filterMap Entry.accepted := by
    rw [log, List.filterMap_append, List.filterMap_cons_none unaccepted, List.filterMap_nil,
      List.append_nil]
  refine ⟨⟨?_, ?_, ?_⟩, ?_, ?_, locked, ?_⟩
  · rw [accepts]
    exact sound.once
  · rw [accepts, chat]
    exact sound.stored
  · rw [log, List.pairwise_append]
    refine ⟨sound.declined, List.pairwise_singleton _ _, ?_⟩
    intro earlier _ later new _
    rw [List.mem_singleton.mp new]
    exact unaccepted
  · rw [accepts, chat]
    exact sound.unaccepted
  · rw [log, chat]
    intro other listed gone
    rcases List.mem_append.mp listed with old | new
    · exact sound.remembered other old gone
    · rw [List.mem_singleton.mp new, undiscarded] at gone
      cases gone
  · rw [chat]
    exact fun held => sound.open_ (open_ held)

theorem Sound.accepted (sound : Sound h) {call : Nat} {s : Session} {r : AcceptEncryption}
    (under : h.calls call = some (.accepting s r)) {answer : TLEncryptedChat} :
    Sound { h.leaves call (.accept s r (.ok answer)) with
      chat := h.chat.saveAccept s r, lock := none } := by
  have held := sound.locked call s r under
  have mine : h.lock.isSome := by rw [held]; rfl
  obtain ⟨free, undiscarded⟩ := sound.open_ mine
  have accepts : (h.log ++ [Entry.accept s r (.ok answer)]).filterMap Entry.accepted = [(s, r)] := by
    rw [List.filterMap_append, sound.unaccepted free]
    rfl
  refine ⟨⟨?_, ?_, ?_⟩, fun none => (by cases none), ?_, ?_, fun held => (by cases held)⟩
  · show ((h.log ++ [Entry.accept s r (.ok answer)]).filterMap Entry.accepted).length ≤ 1
    rw [accepts]
    exact Nat.le_refl 1
  · show ∀ a ∈ (h.log ++ [Entry.accept s r (.ok answer)]).filterMap Entry.accepted, _
    rw [accepts]
    intro a only
    rw [List.mem_singleton.mp only]
    exact ⟨rfl, rfl, rfl⟩
  · refine List.pairwise_append.mpr ⟨sound.declined, List.pairwise_singleton _ _, ?_⟩
    intro earlier listed later _ gone
    have discarded := sound.remembered earlier listed gone
    rw [undiscarded] at discarded
    cases discarded
  · intro entry listed gone
    rcases List.mem_append.mp listed with old | new
    · exact sound.remembered entry old gone
    · rw [List.mem_singleton.mp new] at gone
      cases gone
  · intro other t q under'
    rcases stage_update under' with ⟨-, none⟩ | ⟨apart, here⟩
    · cases none
    · have again := sound.locked other t q here
      rw [held] at again
      exact absurd (Option.some.inj again).symm apart

theorem Sound.discarded (sound : Sound h) {call : Nat} {s : Session} {r : DiscardEncryption}
    (unlocked : h.lock = none) {answer : TLEncryptedChat} :
    Sound { h.leaves call (.discard s r (.ok answer)) with chat := h.chat.saveDiscard r } := by
  have accepts : (h.log ++ [Entry.discard s r (.ok answer)]).filterMap Entry.accepted =
      h.log.filterMap Entry.accepted := by
    rw [List.filterMap_append]
    exact List.append_nil _
  refine ⟨⟨?_, ?_, ?_⟩, ?_, fun _ _ _ => rfl, ?_, ?_⟩
  · show ((h.log ++ [Entry.discard s r (.ok answer)]).filterMap Entry.accepted).length ≤ 1
    rw [accepts]
    exact sound.once
  · show ∀ a ∈ (h.log ++ [Entry.discard s r (.ok answer)]).filterMap Entry.accepted, _
    rw [accepts]
    exact sound.stored
  · refine List.pairwise_append.mpr ⟨sound.declined, List.pairwise_singleton _ _, ?_⟩
    intro earlier _ later new _
    rw [List.mem_singleton.mp new]
    rfl
  · show h.chat.toSessId = none → (h.log ++ [Entry.discard s r (.ok answer)]).filterMap _ = []
    rw [accepts]
    exact sound.unaccepted
  · intro other t q under'
    rcases stage_update under' with ⟨-, none⟩ | ⟨-, here⟩
    · cases none
    · exact sound.locked other t q here
  · intro held
    have taken : h.lock.isSome := held
    rw [unlocked] at taken
    cases taken

theorem sound_step (sound : Sound h) (happens : h.step e = some h') : Sound h' := by
  cases does_of_step happens with
  | refusedAccept s r failure left =>
    subst left
    exact sound.ended rfl rfl rfl rfl sound.locked id
  | refusedDiscard s r failure checked left =>
    subst left
    exact sound.ended rfl rfl rfl rfl sound.locked id
  | locked call s r unlocked checked left =>
    subst left
    refine ⟨⟨sound.once, sound.stored, sound.declined⟩, sound.unaccepted, sound.remembered, ?_, ?_⟩
    · intro other t q under
      rcases stage_update under with ⟨same, -⟩ | ⟨-, here⟩
      · rw [same]
      · have held := sound.locked other t q here
        rw [unlocked] at held
        cases held
    · exact fun _ => checkAccept_eq_ok.mp checked
  | accepted call s r event under left =>
    subst left
    exact sound.accepted under
  | failed call s r under left =>
    subst left
    have held := sound.locked call s r under
    refine sound.ended rfl rfl rfl rfl ?_ fun held => (by cases held)
    intro other t q under'
    rcases stage_update under' with ⟨-, none⟩ | ⟨apart, here⟩
    · cases none
    · have again := sound.locked other t q here
      rw [held] at again
      exact absurd (Option.some.inj again).symm apart
  | discarding call s r checked left =>
    subst left
    refine ⟨⟨sound.once, sound.stored, sound.declined⟩, sound.unaccepted, sound.remembered, ?_, sound.open_⟩
    intro other t q under
    rcases stage_update under with ⟨-, stage⟩ | ⟨-, here⟩
    · cases stage
    · exact sound.locked other t q here
  | discarded call s r under unlocked left =>
    subst left
    exact sound.discarded unlocked

/-- A discarding under way passes for the row as it is. -/
structure Alone (h : Handshake) : Prop where
  allowed : ∀ call t q, h.calls call = some (.discarding t q) →
    h.chat.requestedBy t ∨ t.userId = h.chat.toUserId
  current : ∀ call t q, h.calls call = some (.discarding t q) → t.userId = h.chat.toUserId →
    ∀ sess, h.chat.toSessId = some sess → t.authId = sess

theorem checkDiscard_eq_ok {chat : EncryptedChat} {s : Session} {r : DiscardEncryption} :
    chat.checkDiscard s r = .ok () ↔
      ((chat.requestedBy s ∨ s.userId = chat.toUserId) ∧ r.chatId = chat.id) ∧
        (s.userId = chat.toUserId → ∀ sess, chat.toSessId = some sess → s.authId = sess) ∧
        chat.discarded = false := by
  have taken : (!(chat.toUserId == s.userId && chat.toSessId.any fun sess => sess != s.authId)) =
      true ↔ (s.userId = chat.toUserId → ∀ sess, chat.toSessId = some sess → s.authId = sess) := by
    rw [Bool.not_eq_true', Bool.and_eq_false_imp, beq_iff_eq, eq_comm]
    refine forall_congr' fun _ => ?_
    cases chat.toSessId with
    | none => simp only [Option.any_none, reduceCtorEq, false_implies, implies_true]
    | some sess =>
      rw [Option.any_some, bne_eq_false_iff_eq]
      exact ⟨fun same _ found => same ▸ Option.some.inj found, fun all => (all sess rfl).symm⟩
  rw [EncryptedChat.checkDiscard, check_bind_eq_ok, check_bind_eq_ok, require_eq_ok, require_eq_ok,
    require_eq_ok, taken, Bool.and_eq_true, Bool.or_eq_true, beq_iff_eq, beq_iff_eq,
    Bool.not_eq_true', @eq_comm _ chat.id, @eq_comm _ chat.toUserId]

theorem checkDiscard_taken {chat : EncryptedChat} {s : Session} {r : DiscardEncryption} {sess : Nat}
    (taken : chat.toSessId = some sess) (named : r.chatId = chat.id)
    (recipient : s.userId = chat.toUserId) (other : s.authId ≠ sess) :
    chat.checkDiscard s r = .error (.rpc 400 "ENCRYPTION_ALREADY_ACCEPTED") := by
  have here : ((chat.requestedBy s || chat.toUserId == s.userId) && chat.id == r.chatId) = true := by
    rw [named, recipient, beq_self_eq_true, Bool.or_true, beq_self_eq_true, Bool.and_self]
  have refused : (!(chat.toUserId == s.userId && chat.toSessId.any fun x => x != s.authId)) =
      false := by
    rw [recipient, beq_self_eq_true, taken, Option.any_some, bne_iff_ne.mpr other.symm]
    rfl
  rw [EncryptedChat.checkDiscard, here, refused]
  rfl

theorem Alone.of_same (alone : Alone h) (chat : h'.chat = h.chat)
    (fewer : ∀ call t q, h'.calls call = some (.discarding t q) →
      h.calls call = some (.discarding t q)) : Alone h' := by
  refine ⟨?_, ?_⟩
  · rw [chat]
    exact fun call t q under => alone.allowed call t q (fewer call t q under)
  · rw [chat]
    exact fun call t q under => alone.current call t q (fewer call t q under)

theorem bound_concat {entry : Entry} (bound : Bound h)
    (same : h'.chat.id = h.chat.id ∧ h'.chat.toUserId = h.chat.toUserId ∧
      h'.chat.fromUserId = h.chat.fromUserId ∧ h'.chat.fromSessId = h.chat.fromSessId)
    (log : h'.log = h.log ++ [entry])
    (binds : ∀ earlier ∈ h.log, Entry.Binds h.chat earlier entry) : Bound h' := by
  obtain ⟨id, toUserId, fromUserId, fromSessId⟩ := same
  have all : ∀ earlier later, Entry.Binds h'.chat earlier later ↔ Entry.Binds h.chat earlier later := by
    intro earlier later
    unfold Entry.Binds EncryptedChat.requestedBy
    rw [id, toUserId, fromUserId, fromSessId]
  rw [Bound, log, List.pairwise_append]
  refine ⟨bound.imp fun {earlier later} => (all earlier later).mpr, List.pairwise_singleton _ _, ?_⟩
  intro earlier listed later new
  rw [List.mem_singleton.mp new]
  exact (all earlier entry).mpr (binds earlier listed)

theorem binds_accept (chat : EncryptedChat) (earlier : Entry) (s : Session) (r : AcceptEncryption)
    (answer : Except Failure TLEncryptedChat) : Entry.Binds chat earlier (.accept s r answer) :=
  fun _ _ => ⟨fun _ none => (by cases none), fun _ _ _ same => (by cases same)⟩

theorem Sound.accepted_stored (sound : Sound h) {entry : Entry} (listed : entry ∈ h.log)
    {a : Session × AcceptEncryption} (accepted : entry.accepted = some a) :
    h.chat.toSessId = some a.1.authId :=
  (sound.stored a (List.mem_filterMap.mpr ⟨entry, listed, accepted⟩)).1

theorem alone_step (sound : Sound h) (alone : Alone h) (bound : Bound h)
    (undisturbed : Undisturbed h e) (happens : h.step e = some h') : Alone h' ∧ Bound h' := by
  cases does_of_step happens with
  | refusedAccept s r failure left =>
    subst left
    exact ⟨alone.of_same rfl fun _ _ _ under => under,
      bound_concat bound ⟨rfl, rfl, rfl, rfl⟩ rfl fun _ _ => binds_accept _ _ s r _⟩
  | refusedDiscard s r failure checked left =>
    subst left
    refine ⟨alone.of_same rfl fun _ _ _ under => under,
      bound_concat bound ⟨rfl, rfl, rfl, rfl⟩ rfl ?_⟩
    intro earlier listed a accepted
    refine ⟨fun _ none => (by cases none), ?_⟩
    intro t q answer same named recipient other
    cases same
    have taken := sound.accepted_stored listed accepted
    have told := checkDiscard_taken taken named recipient other
    rw [checked] at told
    rw [Except.error.inj told]
  | locked call s r unlocked checked left =>
    subst left
    refine ⟨alone.of_same rfl ?_, bound⟩
    intro other t q under
    rcases stage_update under with ⟨-, stage⟩ | ⟨-, here⟩
    · cases stage
    · exact here
  | accepted call s r event under left =>
    subst left event
    refine ⟨⟨?_, ?_⟩, bound_concat bound ⟨rfl, rfl, rfl, rfl⟩ rfl fun _ _ =>
      binds_accept _ _ s r _⟩
    · intro other t q under'
      rcases stage_update under' with ⟨-, none⟩ | ⟨-, here⟩
      · cases none
      · exact alone.allowed other t q here
    · intro other t q under' recipient sess stored
      cases stored
      rcases stage_update under' with ⟨-, none⟩ | ⟨-, here⟩
      · cases none
      · exact undisturbed s r under other t q here recipient
  | failed call s r under left =>
    subst left
    refine ⟨alone.of_same rfl ?_, bound_concat bound ⟨rfl, rfl, rfl, rfl⟩ rfl fun _ _ =>
      binds_accept _ _ s r _⟩
    intro other t q under'
    rcases stage_update under' with ⟨-, none⟩ | ⟨-, here⟩
    · cases none
    · exact here
  | discarding call s r checked left =>
    subst left
    obtain ⟨⟨allowed, -⟩, current, -⟩ := checkDiscard_eq_ok.mp checked
    refine ⟨⟨?_, ?_⟩, bound⟩
    · intro other t q under
      rcases stage_update under with ⟨-, stage⟩ | ⟨-, here⟩
      · cases stage
        exact allowed
      · exact alone.allowed other t q here
    · intro other t q under
      rcases stage_update under with ⟨-, stage⟩ | ⟨-, here⟩
      · cases stage
        exact current
      · exact alone.current other t q here
  | discarded call s r under unlocked left =>
    subst left
    refine ⟨⟨?_, ?_⟩, bound_concat bound ⟨rfl, rfl, rfl, rfl⟩ rfl ?_⟩
    · intro other t q under'
      rcases stage_update under' with ⟨-, none⟩ | ⟨-, here⟩
      · cases none
      · exact alone.allowed other t q here
    · intro other t q under'
      rcases stage_update under' with ⟨-, none⟩ | ⟨-, here⟩
      · cases none
      · exact alone.current other t q here
    · intro earlier listed a accepted
      have taken := sound.accepted_stored listed accepted
      have mine := alone.current call s r under
      refine ⟨?_, ?_⟩
      · intro t same
        cases same
        rcases alone.allowed call s r under with requester | recipient
        · exact .inl requester
        · exact .inr (mine recipient _ taken)
      · intro t q answer same _ recipient other
        cases same
        exact absurd (mine recipient _ taken) other

theorem sound_of_fresh (fresh : Fresh h) : Sound h := by
  obtain ⟨unaccepted, undiscarded, unlocked, idle, silent⟩ := fresh
  refine ⟨⟨?_, ?_, ?_⟩, ?_, ?_, ?_, fun _ => ⟨unaccepted, undiscarded⟩⟩
  · rw [silent]
    exact Nat.zero_le 1
  · rw [silent]
    exact fun _ absent => by cases absent
  · rw [silent]
    exact .nil
  · exact fun _ => by rw [silent]; rfl
  · rw [silent]
    exact fun _ absent => by cases absent
  · exact fun call _ _ under => by rw [idle call] at under; cases under

/-- Along every run of accepting and discarding one secret chat at most one session accepts, what
it has accepted stays stored, and a discarded chat is not accepted. -/
theorem agreed_along {es : List Event} (fresh : Fresh h) :
    HoldsAlong Handshake.step Agreed h es :=
  holdsAlong_of_keep (fun _ sound => sound.toAgreed)
    (fun _ _ _ sound happens => sound_step sound happens) (sound_of_fresh fresh)

/-- Along the runs in which no other session of the recipient is about to discard when one accepts,
only the requester and the accepting session discard. -/
theorem handshake_along {es : List Event} (fresh : Fresh h)
    (meets : StepsMeet Handshake.step Undisturbed h es) :
    HoldsAlong Handshake.step (fun h => Agreed h ∧ Bound h) h es := by
  have alone : Alone h := by
    refine ⟨?_, ?_⟩
    · exact fun call _ _ under => by rw [fresh.idle call] at under; cases under
    · exact fun call _ _ under => by rw [fresh.idle call] at under; cases under
  have bound : Bound h := by
    rw [Bound, fresh.silent]
    exact .nil
  have keep : ∀ h e h', (Sound h ∧ Alone h ∧ Bound h) → Undisturbed h e →
      Handshake.step h e = some h' → Sound h' ∧ Alone h' ∧ Bound h' := by
    rintro h e h' ⟨sound, alone, bound⟩ undisturbed happens
    exact ⟨sound_step sound happens, alone_step sound alone bound undisturbed happens⟩
  exact holdsAlong_of_stepsMeet (fun _ here => ⟨here.1.toAgreed, here.2.2⟩) keep
    ⟨sound_of_fresh fresh, alone, bound⟩ meets

end Invariants

/-- A chat that user 1 has requested from user 2. -/
private def requested : Handshake where
  chat := ⟨31, 77, 0, 1, 10, 2, none, [3], [], none, false, false⟩
  lock := none
  calls := fun _ => none
  log := []

private theorem fresh_requested : Fresh requested := ⟨rfl, rfl, rfl, fun _ => rfl, rfl⟩

private def acceptance : AcceptEncryption := ⟨31, 77, Bytes.ofNat 256 (2 ^ 2047), 5⟩

private theorem checkGAOrB_acceptance : checkGAOrB acceptance.gB = true := by
  have number : acceptance.gB.toNat = 2 ^ 2047 := Bytes.toNat_ofNat (by decide +kernel)
  rw [checkGAOrB, number]
  decide +kernel

private theorem accept_acceptance (h : Handshake) (call : Nat) (s : Session)
    (free : h.calls call = none) (found : h.chat.accepts s acceptance = true)
    (unlocked : h.lock = none) (checked : h.chat.checkAccept = .ok ()) :
    h.step (.accept call s acceptance) =
      some { h.goesOn call (.accepting s acceptance) with lock := some call } := by
  rw [Handshake.step, free, Handshake.accept, checkGAOrB_acceptance, found, unlocked, checked]
  rfl

/-- The requester has read the chat before a session accepts it, and discards it then; the other
session of the recipient is refused. -/
theorem accepted_alone :
    HoldsAlong Handshake.step (fun h => Agreed h ∧ Bound h) requested
      [.discard 1 ⟨1, 10⟩ ⟨31, false⟩, .accept 0 ⟨2, 20⟩ acceptance, .saveAccept 0 true,
        .discard 2 ⟨2, 21⟩ ⟨31, false⟩, .saveDiscard 1] := by
  let begun := requested.goesOn 1 (.discarding ⟨1, 10⟩ ⟨31, false⟩)
  have reads : requested.step (.discard 1 ⟨1, 10⟩ ⟨31, false⟩) = some begun := rfl
  have locks := accept_acceptance begun 0 ⟨2, 20⟩ rfl rfl rfl rfl
  refine handshake_along fresh_requested ((stepsMeet_cons reads).mpr ⟨trivial,
    (stepsMeet_cons locks).mpr ⟨trivial, stepsMeet_cons_iff.mpr ⟨?_, fun _ _ => ?_⟩⟩⟩)
  · intro s r _ other t q under recipient
    rcases stage_update under with ⟨-, stage⟩ | ⟨-, here⟩
    · cases stage
    · rcases stage_update here with ⟨-, stage⟩ | ⟨-, idle⟩
      · cases stage
        cases recipient
      · cases idle
  · exact stepsMeet_cons_iff.mpr ⟨trivial, fun _ _ => stepsMeet_cons_iff.mpr
      ⟨trivial, fun _ _ => trivial⟩⟩

theorem agreed_race : HoldsAlong Handshake.step Agreed requested
    [.discard 0 ⟨2, 21⟩ ⟨31, false⟩, .accept 1 ⟨2, 20⟩ acceptance, .saveAccept 1 true,
      .saveDiscard 0] :=
  agreed_along fresh_requested

/-- A session that has read the chat before another one accepts discards the accepted chat. -/
theorem discarded_by_other :
    ¬ ∀ (h : Handshake) (es : List Event), Fresh h →
      HoldsAlong Handshake.step (fun h => Agreed h ∧ Bound h) h es := by
  intro along
  let begun := requested.goesOn 0 (.discarding ⟨2, 21⟩ ⟨31, false⟩)
  have locks := accept_acceptance begun 1 ⟨2, 20⟩ rfl rfl rfl rfl
  obtain ⟨-, bound⟩ := along requested [.discard 0 ⟨2, 21⟩ ⟨31, false⟩,
    .accept 1 ⟨2, 20⟩ acceptance, .saveAccept 1 true, .saveDiscard 0] fresh_requested _ _
    (List.prefix_refl _) (runFrom_cons_some.mpr ⟨begun, rfl, runFrom_cons_some.mpr ⟨_, locks, rfl⟩⟩)
  have binds := (List.pairwise_cons.mp bound).1 _ (List.mem_singleton.mpr rfl) _ rfl
  exact absurd (binds.1 _ rfl) (by decide)

end Piltover.Secret
