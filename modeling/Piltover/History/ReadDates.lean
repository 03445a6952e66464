/- source: piltover/app/handlers/messages/history.py, piltover/db/models/read_history_chunk.py
   digest: When a message was read, as the one who sent it is told, however much is read later. -/

import Piltover.History.ReadPositions

set_option autoImplicit false

namespace Piltover.History

open Piltover.Foundation
open Piltover.Foundation.Paging
open Piltover.Foundation.Runs

/-- A row of `ReadHistoryChunk` joined with its peer; `readAt` is in microseconds. -/
structure ReadHistoryChunk where
  userId : Nat
  peer : Peer
  readContentId : Nat
  readAt : Nat
  deriving DecidableEq, Repr

/-- `int(read_at.timestamp())`. -/
def ReadHistoryChunk.date (chunk : ReadHistoryChunk) : Nat := chunk.readAt / 1000000

def Peer.otherUser (self : Peer) : Option Nat :=
  match self.type with
  | .user other => some other
  | _ => none

/-- `peer_q`: whose readings count for the messages of the peer. -/
def Peer.isReadBy (self q : Peer) : Bool :=
  match self.type with
  | .self => q.id == self.id
  | .user userId => q.ownerId == some userId && self.ownerId.any fun owner => q.type == .user owner
  | .chat _ => q.type == self.type && q.ownerId != self.ownerId
  | .channel _ => false

def ReadHistoryChunk.covers (chunk : ReadHistoryChunk) (peer : Peer) (m : MessageRef) : Bool :=
  peer.isReadBy chunk.peer && decide (m.content.id ≤ chunk.readContentId)

/-- The statements of calls under way, with the chunks in the order in which they were created. -/
structure DatedReading where
  reading : Reading
  chunks : List ReadHistoryChunk

/-- What happens, and when. -/
structure DatedEvent where
  event : ReadEvent
  now : Nat

namespace DatedReading

variable (exact : List Nat → Except Failure (Nat → Bool)) (readDatesPrivate : Nat → Bool)
  (w : DatedReading)

/-- The chunk that a call of `read_history` creates after it has saved its read state. -/
def createdChunk (e : DatedEvent) : Option ReadHistoryChunk :=
  match e.event with
  | .go call =>
    match w.reading.calls call with
    | some (.saving l _ contentId) => some ⟨l.request.userId, l.peer, contentId, e.now⟩
    | _ => none
  | _ => none

/-- Nothing is under way, and nothing was read. -/
def begin (db : Db) : DatedReading := ⟨.begin db, []⟩

def sentRows : ReadEvent → List MessageRef
  | .send _ _ _ _ _ rows => rows
  | _ => []

def step (e : DatedEvent) : Option DatedReading :=
  (w.reading.step exact e.event).map fun reading => ⟨reading, w.chunks ++ (w.createdChunk e).toList⟩

def getOutboxReadDate (userId peerId messageId : Nat) : Except Failure Nat := do
  let peer ← orRaise (w.reading.db.inputPeer ⟨userId, peerId, 0⟩ false)
    (.rpc 400 "PEER_ID_INVALID")
  require (peer.otherUser.all fun _ => !readDatesPrivate userId) (.rpc 403 "YOUR_PRIVACY_RESTRICTED")
  require (peer.otherUser.all fun other => !readDatesPrivate other)
    (.rpc 403 "USER_PRIVACY_RESTRICTED")
  let message ← orRaise (w.reading.db.refs.rows.find? fun m =>
    m.peerId == peer.id && m.id == messageId && m.content.authorId == userId)
    (.rpc 400 "MESSAGE_ID_INVALID")
  let chunk ← orRaise (newest ReadHistoryChunk.readAt (w.chunks.filter fun chunk =>
    chunk.covers peer message) 1).head? (.rpc 400 "MESSAGE_NOT_READ_YET")
  return chunk.date

/-! ### What is to be answered -/

/-- The first chunk of another member that reaches the message. -/
def firstChunk (peer : Peer) (m : MessageRef) : Option ReadHistoryChunk :=
  w.chunks.find? fun chunk => chunk.covers peer m

/-- The message is the peer's owner's, in a private chat where nobody hides when they read, or in a
basic group. -/
structure Outgoing (db : Db) (peer : Peer) (m : MessageRef) : Prop where
  listed : peer ∈ db.peers
  here : m.peerId = peer.id
  own : peer.ownerId = some m.content.authorId
  personal : (∃ other, peer.type = .user other) ∨ ∃ chatId, peer.type = .chat chatId
  shown : ∀ other, peer.type = .user other →
    readDatesPrivate m.content.authorId = false ∧ readDatesPrivate other = false

/-- Every message is said to be read when it was first read, and not before. -/
def DatesRight : Prop :=
  ∀ peer, ∀ m ∈ w.reading.db.refs, Outgoing readDatesPrivate w.reading.db peer m →
    w.getOutboxReadDate readDatesPrivate m.content.authorId peer.id m.id =
      orRaise ((w.firstChunk peer m).map ReadHistoryChunk.date) (.rpc 400 "MESSAGE_NOT_READ_YET")

def FirstLatest (peer : Peer) (m : MessageRef) : Prop :=
  ∀ chunk ∈ w.chunks, chunk.covers peer m = true → ∀ first, w.firstChunk peer m = some first →
    chunk.date ≤ first.date

/-- Nothing is read again in a later second, and what is sent has not been. -/
def Keeps (e : DatedEvent) : Prop :=
  (∀ chunk, w.createdChunk e = some chunk → ∀ peer, ∀ m ∈ w.reading.db.refs,
    Outgoing readDatesPrivate w.reading.db peer m → chunk.covers peer m = true →
      ∀ first, w.firstChunk peer m = some first → chunk.date ≤ first.date) ∧
  ∀ peer, ∀ m ∈ sentRows e.event,
    Outgoing readDatesPrivate w.reading.db peer m → w.FirstLatest peer m

variable {exact readDatesPrivate} {w} {t : DatedReading} {e : DatedEvent} {peer : Peer}
  {m : MessageRef}

/-! ### One answer -/

theorem inputPeer_of_outgoing {db : Db} (outgoing : Outgoing readDatesPrivate db peer m) :
    db.inputPeer ⟨m.content.authorId, peer.id, 0⟩ false = some peer := by
  have stored := Table.mem_iff_get.mp outgoing.listed
  have owned : (peer.ownerId == some m.content.authorId) = true := beq_iff_eq.mpr outgoing.own
  refine Option.filter_eq_some_iff.mpr ⟨stored, ?_⟩
  rcases outgoing.personal with ⟨other, type⟩ | ⟨chatId, type⟩
  · rw [type, owned]
    rfl
  · rw [type, owned]
    rfl

/-- Nobody's privacy keeps the answer back. -/
theorem allowed_of_outgoing {db : Db} (outgoing : Outgoing readDatesPrivate db peer m) :
    (peer.otherUser.all fun _ => !readDatesPrivate m.content.authorId) = true ∧
      (peer.otherUser.all fun other => !readDatesPrivate other) = true := by
  rw [Peer.otherUser]
  rcases outgoing.personal with ⟨other, type⟩ | ⟨chatId, type⟩
  · obtain ⟨own, others⟩ := outgoing.shown other type
    rw [type]
    dsimp only [Option.all_some]
    rw [own, others]
    exact ⟨rfl, rfl⟩
  · rw [type]
    exact ⟨rfl, rfl⟩

theorem find_message (stored : m ∈ w.reading.db.refs) (here : m.peerId = peer.id) :
    w.reading.db.refs.rows.find? (fun r => r.peerId == peer.id && r.id == m.id &&
      r.content.authorId == m.content.authorId) = some m := by
  cases found : w.reading.db.refs.rows.find? fun r => r.peerId == peer.id && r.id == m.id &&
      r.content.authorId == m.content.authorId with
  | none =>
    have misses := List.find?_eq_none.mp found m stored
    simp [here] at misses
  | some r =>
    have hit := List.find?_some found
    simp only [Bool.and_eq_true, beq_iff_eq] at hit
    rw [Table.eq_of_key_eq (List.mem_of_find?_eq_some found) stored hit.1.2]

theorem answer_eq (stored : m ∈ w.reading.db.refs)
    (outgoing : Outgoing readDatesPrivate w.reading.db peer m) :
    w.getOutboxReadDate readDatesPrivate m.content.authorId peer.id m.id =
      orRaise ((newest ReadHistoryChunk.readAt (w.chunks.filter fun chunk =>
        chunk.covers peer m) 1).head?.map ReadHistoryChunk.date)
          (.rpc 400 "MESSAGE_NOT_READ_YET") := by
  obtain ⟨own, others⟩ := allowed_of_outgoing outgoing
  rw [getOutboxReadDate, inputPeer_of_outgoing outgoing]
  change (require _ _ >>= fun _ => require _ _ >>= fun _ => _) = _
  rw [own, others, find_message stored outgoing.here]
  change (orRaise (newest ReadHistoryChunk.readAt (w.chunks.filter fun chunk =>
    chunk.covers peer m) 1).head? _ >>= fun chunk => pure chunk.date) = _
  cases (newest ReadHistoryChunk.readAt (w.chunks.filter fun chunk =>
    chunk.covers peer m) 1).head? <;> rfl

theorem firstChunk_spec {first : ReadHistoryChunk} (found : w.firstChunk peer m = some first) :
    first ∈ w.chunks ∧ first.covers peer m = true := by
  rw [firstChunk] at found
  have covers := List.find?_some found
  exact ⟨List.mem_of_find?_eq_some found, covers⟩

theorem answer_iff (stored : m ∈ w.reading.db.refs)
    (outgoing : Outgoing readDatesPrivate w.reading.db peer m) :
    w.getOutboxReadDate readDatesPrivate m.content.authorId peer.id m.id =
        orRaise ((w.firstChunk peer m).map ReadHistoryChunk.date)
          (.rpc 400 "MESSAGE_NOT_READ_YET") ↔
      w.FirstLatest peer m := by
  rw [answer_eq stored outgoing]
  cases latest : newest ReadHistoryChunk.readAt (w.chunks.filter fun chunk =>
      chunk.covers peer m) 1 with
  | nil =>
    have none_ := newest_one_eq_nil_iff.mp latest
    have unread : ∀ chunk ∈ w.chunks, ¬ chunk.covers peer m = true :=
      List.filter_eq_nil_iff.mp none_
    have first : w.firstChunk peer m = none := List.find?_eq_none.mpr unread
    rw [first]
    exact iff_of_true rfl fun chunk listed covers => absurd covers (unread chunk listed)
  | cons last rest =>
    obtain ⟨-, listed, greatest⟩ := head_newest latest
    obtain ⟨created, covers⟩ := List.mem_filter.mp listed
    cases found : w.firstChunk peer m with
    | none => exact absurd covers (List.find?_eq_none.mp found last created)
    | some first =>
      obtain ⟨before, reaches⟩ := firstChunk_spec found
      have le : first.date ≤ last.date :=
        Nat.div_le_div_right (greatest first (List.mem_filter.mpr ⟨before, reaches⟩))
      constructor
      · intro same chunk there covers' first' found'
        cases found.symm.trans found'
        have dates : last.date = first.date := Except.ok.inj same
        rw [← dates]
        exact Nat.div_le_div_right (greatest chunk (List.mem_filter.mpr ⟨there, covers'⟩))
      · intro earliest
        have ge := earliest last created covers first found
        rw [List.head?_cons, Option.map_some, Option.map_some, le_antisymm ge le]

theorem datesRight_iff : w.DatesRight readDatesPrivate ↔ ∀ peer, ∀ m ∈ w.reading.db.refs,
    Outgoing readDatesPrivate w.reading.db peer m → w.FirstLatest peer m :=
  forall_congr' fun _ => forall₂_congr fun _ stored => forall_congr' fun outgoing =>
    answer_iff stored outgoing

/-! ### One statement -/

structure Related (before after : Db) (sent : List MessageRef) : Prop where
  refs : ∀ m, m ∈ after.refs ↔ m ∈ before.refs ∨ m ∈ sent
  stays : ∀ q ∈ before.peers, ∃ q' ∈ after.peers, q.Same q'
  known : ∀ q' ∈ after.peers, (∃ q ∈ before.peers, q.Same q') ∨ ∀ m ∈ after.refs, m.peerId ≠ q'.id

theorem Related.of_grows {before after : Db} (grows : Grows before after)
    (same : after.refs = before.refs) : Related before after [] where
  refs := fun m => by rw [same, List.mem_nil_iff, or_false]
  stays := fun q listed => by
    obtain ⟨q', there, alike, -⟩ := grows.stays q listed
    exact ⟨q', there, alike⟩
  known := fun q' listed => (grows.known q' listed).imp_left fun ⟨q, there, alike, _⟩ =>
    ⟨q, there, alike⟩

theorem refs_updateMaxReadId (db : Db) (self : Peer) (id : Nat) :
    (db.updateMaxReadId self id).refs = db.refs := by
  rw [Db.updateMaxReadId]
  split <;> rfl

theorem refs_getOrCreate (db : Db) (userId peerId : Nat) :
    (db.getOrCreateReadState userId peerId).refs = db.refs := by
  rw [Db.getOrCreateReadState]
  split <;> rfl

theorem related_refl (db : Db) : Related db db [] := .of_grows (.refl db) rfl

theorem related_updateMaxReadId (db : Db) (self : Peer) (id : Nat) :
    Related db (db.updateMaxReadId self id) [] :=
  .of_grows (grows_updateMaxReadId db self id) (refs_updateMaxReadId db self id)

theorem related_getOrCreate (db : Db) (userId peerId : Nat) :
    Related db (db.getOrCreateReadState userId peerId) [] :=
  .of_grows (grows_getOrCreate db userId peerId) (refs_getOrCreate db userId peerId)

theorem related_readStates {db after : Db} (refs : after.refs = db.refs)
    (peers : after.peers = db.peers) : Related db after [] :=
  .of_grows (grows_readStates refs peers) refs

theorem related_updateOthers {db after : Db} {selected : Nat → Bool} {idsByPeers : List (Nat × Nat)}
    (ran : db.updateOthers selected idsByPeers = .ok after) : Related db after [] := by
  rw [Db.updateOthers, check_bind_eq_ok] at ran
  obtain ⟨-, ran⟩ := ran
  cases ran
  refine .of_grows (grows_modify fun q _ chosen => ⟨same_setOutMaxReadId _ q, ?_⟩) rfl
  rw [Bool.and_eq_true, decide_eq_true_iff] at chosen
  exact Nat.le_of_lt chosen.2

theorem related_sync (db : Db) (peerIds : List Nat) :
    Related db (db.syncLastMessageBulk peerIds) [] := .of_grows (grows_sync db peerIds) rfl

theorem related_createForPeers {db : Db} {peers : List Peer} {rows : List MessageRef}
    (once : (rows.map MessageRef.id).Nodup) (new : ∀ m ∈ rows, db.refs.get m.id = none) :
    Related db (db.createForPeers peers rows) rows := by
  have sync := related_sync { db with refs := db.refs.insertMany rows } (peers.map Peer.id)
  refine ⟨fun m => ⟨fun here => mem_insertMany.2 here, fun either => ?_⟩, sync.stays, sync.known⟩
  change m ∈ db.refs.insertMany rows
  rcases either with old | sent
  · exact mem_insertMany.1 old
  · have first : rows.find? (fun r => r.id = m.id) = some m := by
      cases found : rows.find? fun r => r.id = m.id with
      | none =>
        have misses := List.find?_eq_none.mp found m sent
        exact absurd (decide_eq_true rfl) misses
      | some r =>
        have same := List.find?_some found
        exact congrArg some (List.inj_on_of_nodup_map once (List.mem_of_find?_eq_some found) sent
          (of_decide_eq_true same))
    rw [Table.mem_iff_get, Table.get_insertMany, new m sent, Option.none_or, first]

theorem related_go (r : Reading) (call : Nat) (stage : Stage) :
    Related r.db (r.go exact call stage).db [] := by
  cases stage with
  | looking l =>
    unfold Reading.go
    dsimp only
    split
    · exact related_refl r.db
    · split
      · exact related_refl r.db
      · split <;> exact related_refl r.db
  | updatingOwn l maxId contentId => exact related_updateMaxReadId r.db l.peer maxId
  | saving l maxId contentId => exact related_readStates rfl rfl
  | telling l contentId =>
    unfold Reading.go
    dsimp only
    split
    · exact related_refl r.db
    · split <;> exact related_refl r.db
    · exact related_refl r.db
    · exact related_refl r.db
  | findingOther l contentId other =>
    unfold Reading.go
    dsimp only
    split <;> exact related_refl r.db
  | updatingOther l contentId other newest => exact related_updateMaxReadId r.db other newest
  | updatingOthers l contentId ids =>
    unfold Reading.go
    dsimp only
    split
    · exact related_refl r.db
    · rename_i db ran
      obtain ⟨selected, -, updated⟩ := (bind_eq_ok _).mp ran
      exact related_updateOthers updated
  | channelLooking l =>
    unfold Reading.go
    dsimp only
    split <;> exact related_refl r.db
  | channelSaving l unreadMaxId => exact related_readStates rfl rfl
  | channelTelling l unreadMaxId => exact related_refl r.db
  | channelFinding l unreadMaxId prevLastId =>
    unfold Reading.go
    dsimp only
    split <;> exact related_refl r.db
  | channelUpdating l unreadMaxId => exact related_updateMaxReadId r.db l.peer unreadMaxId
  | counting userId peerId messageId =>
    unfold Reading.go
    dsimp only
    split <;> exact related_getOrCreate r.db userId peerId
  | marking userId peerId messageId =>
    have made := related_getOrCreate r.db userId peerId
    have saved : Related (r.db.getOrCreateReadState userId peerId)
        (r.db.updateOrCreateReadState userId peerId messageId) [] := related_readStates rfl rfl
    exact ⟨fun m => (saved.refs m).trans (or_congr_left ((made.refs m).trans (or_iff_left nofun))),
      made.stays, made.known⟩

theorem related_step {r r' : Reading} {event : ReadEvent}
    (happens : r.step exact event = some r') : Related r.db r'.db (sentRows event) := by
  cases event with
  | read call request =>
    cases happens
    rw [Reading.read]
    split
    · exact related_refl r.db
    · rename_i peer _
      dsimp only
      split <;> exact related_getOrCreate r.db request.userId peer.id
  | readChannel call request =>
    cases happens
    rw [Reading.readChannel]
    split
    · exact related_refl r.db
    · rename_i peer _
      dsimp only
      split <;> exact related_getOrCreate r.db request.userId peer.id
  | send call userId peerId opposite content rows =>
    obtain ⟨peer, -, happens⟩ := Option.bind_eq_some_iff.mp happens
    obtain ⟨_, checked, happens⟩ := Option.bind_eq_some_iff.mp happens
    obtain ⟨own, -, happens⟩ := Option.bind_eq_some_iff.mp happens
    cases happens
    obtain ⟨-, -, once, new⟩ := (Option.guard_eq_some' _).mp checked
    exact related_createForPeers once fun m sent =>
      Option.isNone_iff_eq_none.mp (List.all_eq_true.mp new m sent)
  | createPeer peer =>
    change r.createPeer peer = some r' at happens
    rw [Reading.createPeer] at happens
    split at happens
    · rename_i new
      cases happens
      have fresh : r.db.peers.get peer.id = none := by
        refine Table.get_eq_none_iff.mpr fun q here => ?_
        exact bne_iff_ne.mp (Bool.and_eq_true_iff.mp (List.all_eq_true.mp new.1 q here)).1
      refine ⟨fun m => (or_iff_left nofun).symm, fun q here => ?_, fun q' here => ?_⟩
      · exact ⟨q, (Table.mem_insert fresh).mpr (.inl here), .refl q⟩
      · rcases (Table.mem_insert fresh).mp here with old | rfl
        · exact .inl ⟨q', old, .refl q'⟩
        · exact .inr fun m stored => bne_iff_ne.mp (List.all_eq_true.mp new.2 m stored)
    · cases happens
  | go call =>
    obtain ⟨stage, -, rfl⟩ := Option.map_eq_some_iff.mp happens
    exact related_go r call stage

theorem step_spec (happens : w.step exact e = some t) :
    Related w.reading.db t.reading.db (sentRows e.event) ∧
      t.chunks = w.chunks ++ (w.createdChunk e).toList := by
  obtain ⟨r, moves, rfl⟩ := Option.map_eq_some_iff.mp happens
  exact ⟨related_step moves, rfl⟩

/-! ### What is answered after a statement -/

theorem covers_congr {q : Peer} (same : q.Same peer) (chunk : ReadHistoryChunk) :
    chunk.covers q m = chunk.covers peer m := by
  rw [ReadHistoryChunk.covers, ReadHistoryChunk.covers, Peer.isReadBy, Peer.isReadBy, same.1,
    same.2.1, same.2.2]

theorem firstLatest_congr {q : Peer} (same : q.Same peer) :
    w.FirstLatest q m ↔ w.FirstLatest peer m := by
  simp only [FirstLatest, firstChunk, covers_congr same]

theorem Outgoing.congr {before after : Db} {q : Peer} (outgoing : Outgoing readDatesPrivate before q m)
    (same : q.Same peer) (listed : peer ∈ after.peers) : Outgoing readDatesPrivate after peer m where
  listed := listed
  here := outgoing.here.trans same.1
  own := same.2.1.symm.trans outgoing.own
  personal := by
    rw [← same.2.2]
    exact outgoing.personal
  shown := by
    rw [← same.2.2]
    exact outgoing.shown

theorem firstLatest_append {created : Option ReadHistoryChunk}
    (chunks : t.chunks = w.chunks ++ created.toList) : t.FirstLatest peer m ↔
      w.FirstLatest peer m ∧ ∀ chunk, created = some chunk → chunk.covers peer m = true →
        ∀ first, w.firstChunk peer m = some first → chunk.date ≤ first.date := by
  have found : t.firstChunk peer m =
      (w.firstChunk peer m).or (created.toList.find? fun chunk => chunk.covers peer m) := by
    rw [firstChunk, chunks, List.find?_append, firstChunk]
  constructor
  · intro latest
    have kept (first : ReadHistoryChunk) (here : w.firstChunk peer m = some first) :
        t.firstChunk peer m = some first := by rw [found, here, Option.some_or]
    refine ⟨fun chunk listed covers first here => ?_, fun chunk made covers first here => ?_⟩
    · refine latest chunk ?_ covers first (kept first here)
      rw [chunks]
      exact List.mem_append_left _ listed
    · refine latest chunk ?_ covers first (kept first here)
      rw [chunks, made]
      exact List.mem_append_right _ (List.mem_singleton.mpr rfl)
  · rintro ⟨latest, further⟩ chunk listed covers first here
    rw [chunks, List.mem_append, Option.mem_toList] at listed
    rw [found] at here
    rcases Option.or_eq_some_iff.mp here with old | ⟨none_, new⟩
    · rcases listed with before | made
      · exact latest chunk before covers first old
      · exact further chunk made covers first old
    · rcases listed with before | made
      · exact absurd covers (List.find?_eq_none.mp none_ chunk before)
      · obtain rfl : created = some chunk := made
        obtain rfl := List.mem_singleton.mp (List.mem_of_find?_eq_some new)
        exact le_refl _

theorem createdChunk_of_sent (sent : m ∈ sentRows e.event) : w.createdChunk e = none := by
  obtain ⟨event, now⟩ := e
  cases event with
  | send => rfl
  | _ => cases sent

theorem datesRight_step (right : w.DatesRight readDatesPrivate) (happens : w.step exact e = some t) :
    t.DatesRight readDatesPrivate ↔ w.Keeps readDatesPrivate e := by
  obtain ⟨related, chunks⟩ := step_spec happens
  rw [datesRight_iff] at right ⊢
  constructor
  · intro after
    have here (peer : Peer) (m : MessageRef)
        (stored : m ∈ w.reading.db.refs ∨ m ∈ sentRows e.event)
        (outgoing : Outgoing readDatesPrivate w.reading.db peer m) : t.FirstLatest peer m := by
      obtain ⟨peer', listed, same⟩ := related.stays peer outgoing.listed
      rw [firstLatest_congr same]
      exact after peer' m ((related.refs m).mpr stored) (outgoing.congr same listed)
    constructor
    · intro chunk made peer m stored outgoing
      exact ((firstLatest_append chunks).mp (here peer m (.inl stored) outgoing)).2 chunk made
    · intro peer m sent outgoing
      exact ((firstLatest_append chunks).mp (here peer m (.inr sent) outgoing)).1
  · rintro ⟨again, sent⟩ peer' m stored outgoing'
    rcases related.known peer' outgoing'.listed with ⟨peer, listed, same⟩ | empty
    · have outgoing : Outgoing readDatesPrivate w.reading.db peer m :=
        outgoing'.congr (Peer.Same.symm same) listed
      rw [← firstLatest_congr same, firstLatest_append chunks]
      rcases (related.refs m).mp stored with old | new
      · exact ⟨right peer m old outgoing, fun chunk made => again chunk made peer m old outgoing⟩
      · refine ⟨sent peer m new outgoing, fun chunk made => ?_⟩
        rw [createdChunk_of_sent new] at made
        cases made
    · exact absurd outgoing'.here (empty m stored)

/-! ### Runs -/

theorem firstChunk_step (happens : w.step exact e = some t) {first : ReadHistoryChunk}
    (found : w.firstChunk peer m = some first) : t.firstChunk peer m = some first := by
  rw [firstChunk, (step_spec happens).2, List.find?_append]
  rw [firstChunk] at found
  rw [found, Option.some_or]

/-- In a run the answers are right throughout exactly when nothing is read again in a later second;
the first reading of a message stays the first. -/
theorem read_dates_kept_iff {db : Db} {es : List DatedEvent}
    (goes : (runFrom (step exact) (begin db) es).isSome = true) :
    (HoldsAlong (step exact) (DatesRight readDatesPrivate) (begin db) es ↔
      StepsMeet (step exact) (Keeps readDatesPrivate) (begin db) es) ∧
    StepsKeep (step exact) (fun w t => ∀ peer m first, w.firstChunk peer m = some first →
      t.firstChunk peer m = some first) (begin db) es := by
  obtain ⟨t, run⟩ := Option.isSome_iff_exists.mp goes
  have start : (begin db).DatesRight readDatesPrivate :=
    datesRight_iff.mpr fun _ _ _ _ chunk listed => absurd listed List.not_mem_nil
  constructor
  · refine holdsAlong_iff_stepsMeet (fun _ right => right) ?_ ?_ start run
    · exact fun w e t right keeps happens => (datesRight_step right happens).mpr keeps
    · exact fun w e t right other happens after => other ((datesRight_step right happens).mp after)
  · exact fun _ _ _ _ _ _ happens _ _ _ found => firstChunk_step happens found

end DatedReading

/-! ### Two messages, read one after the other -/

private def message (id peerId contentId : Nat) : MessageRef :=
  ⟨id, peerId, ⟨contentId, .regular, 2, [], 0, none, false, none⟩, false, none, none⟩

/-- The second user has sent two messages to the first. -/
private def twoSent : Db where
  peers := Table.insertMany Table.empty
    [⟨81, some 1, .user 2, none, none, 0⟩, ⟨82, some 2, .user 1, none, none, 0⟩]
  channels := Table.empty
  participants := Table.empty
  mentions := []
  readStates := []
  dialogs := []
  refs := Table.insertMany Table.empty
    [message 101 82 7, message 102 81 7, message 103 82 8, message 104 81 8]

private def selected (ids : List Nat) : Except Failure (Nat → Bool) := .ok fun id => ids.contains id

private def atSecond (second : Nat) (event : ReadEvent) : DatedEvent := ⟨event, second * 1000000⟩

private def readsBoth : List DatedEvent :=
  [atSecond 1 (.read 0 ⟨1, 81, 102⟩), atSecond 1 (.go 0), atSecond 1 (.go 0),
    atSecond 2 (.read 1 ⟨1, 81, 104⟩), atSecond 2 (.go 1), atSecond 2 (.go 1)]

theorem readsBoth_kept :
    (HoldsAlong (DatedReading.step selected) (DatedReading.DatesRight fun _ => false)
        (.begin twoSent) readsBoth ↔
      StepsMeet (DatedReading.step selected) (DatedReading.Keeps fun _ => false)
        (.begin twoSent) readsBoth) ∧
    StepsKeep (DatedReading.step selected) (fun w t => ∀ peer m first,
      w.firstChunk peer m = some first → t.firstChunk peer m = some first)
        (.begin twoSent) readsBoth :=
  DatedReading.read_dates_kept_iff (by decide)

/-- The first message was read in the first second, and is said to have been in the second. -/
theorem date_changes : ¬ ∀ (exact : List Nat → Except Failure (Nat → Bool))
    (readDatesPrivate : Nat → Bool) (db : Db) (es : List DatedEvent),
    (runFrom (DatedReading.step exact) (.begin db) es).isSome = true →
      HoldsAlong (DatedReading.step exact) (DatedReading.DatesRight readDatesPrivate)
        (.begin db) es := by
  intro right
  have after := right selected (fun _ => false) twoSent readsBoth (by decide) _ _
    (List.prefix_refl _) rfl
  have said := after ⟨82, some 2, .user 1, none, none, 0⟩ (message 101 82 7)
    (Table.mem_iff_get.mpr rfl)
    ⟨Table.mem_iff_get.mpr rfl, rfl, rfl, .inl ⟨1, rfl⟩, fun _ _ => ⟨rfl, rfl⟩⟩
  revert said
  decide

end Piltover.History
