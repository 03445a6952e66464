/- source: piltover/app/handlers/messages/history.py, piltover/app/handlers/channels.py,
     piltover/app/handlers/messages/sending.py
   digest: Read positions go forward and reach the other members, in runs of proper statements. -/

import Mathlib.Data.Option.Basic
import Piltover.History.Reading

set_option autoImplicit false

namespace Piltover.History

open Piltover.Foundation
open Piltover.Foundation.Paging
open Piltover.Foundation.Runs

section Positions

variable {db : Db} {userId peerId id : Nat}

theorem readId_getOrCreate (u p : Nat) :
    (db.getOrCreateReadState userId peerId).readId u p = db.readId u p := by
  unfold Db.getOrCreateReadState
  split
  · rfl
  · rw [Db.readId, List.find?_append, Db.readId]
    cases db.readStates.find? fun state => state.ownerId == u && state.peerId == p with
    | some state => rfl
    | none =>
      rw [Option.none_or, List.find?_singleton]
      split <;> rfl

/-- Saving a position that is not behind the saved one takes none back. -/
theorem le_readId_saveReadState (forward : db.readId userId peerId ≤ id) (u p : Nat) :
    db.readId u p ≤ (db.saveReadState userId peerId id).readId u p := by
  have found : (db.saveReadState userId peerId id).readId u p =
      ((db.readStates.find? fun state => state.ownerId == u && state.peerId == p).map fun state =>
        if state.ownerId == userId && state.peerId == peerId then id
        else state.lastMessageId).getD 0 := by
    rw [Db.readId, Db.saveReadState, List.find?_map, Option.map_map]
    congr 2
    · funext state
      simp only [Function.comp]
      split <;> rfl
    · congr 1
      funext state
      simp only [Function.comp]
      split <;> rfl
  rw [found]
  cases here : db.readStates.find? fun state => state.ownerId == u && state.peerId == p with
  | none =>
    rw [Db.readId, here]
    exact Nat.le_refl 0
  | some state =>
    rw [Option.map_some, Option.getD_some]
    have named := List.find?_some here
    rw [Bool.and_eq_true, beq_iff_eq, beq_iff_eq] at named
    split
    · rename_i same
      rw [Bool.and_eq_true, beq_iff_eq, beq_iff_eq] at same
      rw [← named.1, ← named.2, same.1, same.2]
      exact forward
    · rw [Db.readId, here]
      exact Nat.le_refl _

end Positions

section Largest

theorem le_maxIdOf {rows : List MessageRef} {m : MessageRef} (here : m ∈ rows) :
    m.id ≤ maxIdOf rows := by
  cases taken : newest MessageRef.id rows 1 with
  | nil =>
    rw [newest_one_eq_nil_iff.mp taken] at here
    cases here
  | cons first rest =>
    rw [maxIdOf, taken]
    exact (head_newest taken).2.2 m here

theorem le_newestVisible {db : Db} {userId maxId : Nat} {peer : Peer} {m : MessageRef}
    (found : db.newestVisible userId peer maxId = some m) :
    m ∈ db.visibleRows userId peer maxId ∧
      ∀ n ∈ db.visibleRows userId peer maxId, n.id ≤ m.id := by
  cases taken : newest MessageRef.id (db.visibleRows userId peer maxId) 1 with
  | nil =>
    rw [Db.newestVisible, taken] at found
    cases found
  | cons first rest =>
    rw [Db.newestVisible, taken] at found
    cases found
    exact (head_newest taken).2

theorem mem_of_newestRow {db : Db} {peerId maxId : Nat} {m : MessageRef}
    (found : db.newestRow peerId maxId = some m) : m ∈ db.refs ∧ m.peerId = peerId := by
  have listed := mem_of_mem_newest (List.mem_of_mem_head? found)
  rw [List.mem_filter, Bool.and_eq_true, beq_iff_eq] at listed
  exact ⟨listed.1, listed.2.1⟩

end Largest

theorem Peer.Same.refl (p : Peer) : p.Same p := ⟨rfl, rfl, rfl⟩

theorem Peer.Same.symm {p q : Peer} (same : p.Same q) : q.Same p :=
  ⟨same.1.symm, same.2.1.symm, same.2.2.symm⟩

theorem Peer.Same.trans {p q r : Peer} (first : p.Same q) (second : q.Same r) : p.Same r :=
  ⟨first.1.trans second.1, first.2.1.trans second.2.1, first.2.2.trans second.2.2⟩

theorem isOther_congr {p p' q q' : Peer} (own : p.Same p') (other : q.Same q') :
    p.isOther q = p'.isOther q' := by
  unfold Peer.isOther
  rw [own.1, own.2.1, own.2.2, other.1, other.2.1, other.2.2]

/-- What any statement does to the rows: messages stay, and new ones outside channels come with
newer contents; peers stay what they are, their positions do not go back, and new ones have no
messages. -/
structure Grows (before after : Db) : Prop where
  refs : ∀ m ∈ before.refs, m ∈ after.refs
  newer : ∀ m ∈ after.refs, m ∈ before.refs ∨
    (∀ old ∈ before.refs, old.content.id < m.content.id) ∨
      ∀ q ∈ before.peers, q.id = m.peerId → ∃ channelId, q.type = .channel channelId
  stays : ∀ q ∈ before.peers, ∃ q' ∈ after.peers, q.Same q' ∧ q.outMaxReadId ≤ q'.outMaxReadId
  known : ∀ q' ∈ after.peers,
    (∃ q ∈ before.peers, q.Same q' ∧ q.outMaxReadId ≤ q'.outMaxReadId) ∨
      ∀ m ∈ after.refs, m.peerId ≠ q'.id

def Known (db : Db) (contentId : Nat) : Prop := ∃ m ∈ db.refs, contentId ≤ m.content.id

section Growth

variable {before after : Db} {peer : Peer} {contentId : Nat}

theorem Grows.refl (db : Db) : Grows db db where
  refs := fun _ here => here
  newer := fun _ here => .inl here
  stays := fun q here => ⟨q, here, .refl q, Nat.le_refl _⟩
  known := fun q here => .inl ⟨q, here, .refl q, Nat.le_refl _⟩

theorem Known.grows (grows : Grows before after) (known : Known before contentId) :
    Known after contentId := by
  obtain ⟨m, here, le⟩ := known
  exact ⟨m, grows.refs m here, le⟩

theorem not_isOther_channel {q : Peer} {channelId : Nat} (type : q.type = .channel channelId) :
    peer.isOther q = false := by
  unfold Peer.isOther
  rw [type]
  cases own : peer.type with
  | self => rfl
  | user userId => cases peer.ownerId <;> simp
  | chat chatId => rfl
  | channel other => rfl

theorem old_row (grows : Grows before after) (known : Known before contentId) {q' : Peer}
    (here : q' ∈ after.peers) (other : peer.isOther q' = true) {m : MessageRef}
    (stored : m ∈ after.refs) (ours : m.peerId = q'.id) (upTo : m.content.id ≤ contentId) :
    m ∈ before.refs ∧ ∃ q ∈ before.peers, q.Same q' ∧ q.outMaxReadId ≤ q'.outMaxReadId := by
  rcases grows.known q' here with ⟨q, listed, same, le⟩ | empty
  · refine ⟨?_, q, listed, same, le⟩
    rcases grows.newer m stored with old | newer | channel
    · exact old
    · obtain ⟨m', there, bound⟩ := known
      have := newer m' there
      omega
    · obtain ⟨channelId, type⟩ := channel q listed (same.1.trans ours.symm)
      rw [not_isOther_channel (same.2.2.symm.trans type)] at other
      cases other
  · exact absurd ours (empty m stored)

theorem Covered.grows (grows : Grows before after) (known : Known before contentId)
    (covered : Covered before peer contentId) : Covered after peer contentId := by
  intro q' here other m stored ours upTo
  obtain ⟨old, q, listed, same, le⟩ := old_row grows known here other stored ours upTo
  have other' : peer.isOther q = true := by
    rw [isOther_congr (.refl peer) same]
    exact other
  exact Nat.le_trans (covered q listed other' m old (ours.trans same.1.symm) upTo) le

theorem Covered.of_le {db : Db} {p : Peer} {few many : Nat} (covered : Covered db p many)
    (fewer : few ≤ many) (same : p.Same peer) : Covered db peer few := by
  intro q here other m stored ours upTo
  rw [← isOther_congr same (.refl q)] at other
  exact covered q here other m stored ours (Nat.le_trans upTo fewer)

end Growth

/-- A user has one peer for a user or a chat. -/
def Distinct (db : Db) : Prop :=
  ∀ p ∈ db.peers, ∀ q ∈ db.peers, p.ownerId = q.ownerId → p.type = q.type → p = q

section Statements

variable {db : Db}

theorem grows_modify {check : Peer → Bool} {change : Peer → Peer}
    {keeps : ∀ q, (change q).id = q.id}
    (raises : ∀ q ∈ db.peers, check q = true →
      q.Same (change q) ∧ q.outMaxReadId ≤ (change q).outMaxReadId) :
    Grows db { db with peers := db.peers.modify check change keeps } := by
  have each : ∀ q ∈ db.peers, q.Same (if check q then change q else q) ∧
      q.outMaxReadId ≤ (if check q then change q else q).outMaxReadId := by
    intro q here
    split
    · rename_i chosen
      exact raises q here chosen
    · exact ⟨.refl q, Nat.le_refl _⟩
  refine ⟨fun _ here => here, fun _ here => .inl here, fun q here => ?_, fun q' here => ?_⟩
  · have changed : (if check q then change q else q) ∈ db.peers.modify check change keeps :=
      Table.mem_modify.mpr ⟨q, here, rfl⟩
    exact ⟨_, changed, each q here⟩
  · have changed : q' ∈ db.peers.modify check change keeps := here
    obtain ⟨q, listed, rfl⟩ := Table.mem_modify.mp changed
    exact .inl ⟨q, listed, each q listed⟩

theorem distinct_modify (distinct : Distinct db) {check : Peer → Bool} {change : Peer → Peer}
    {keeps : ∀ q, (change q).id = q.id} (same : ∀ q : Peer, q.Same (change q)) :
    Distinct { db with peers := db.peers.modify check change keeps } := by
  have each : ∀ q : Peer, q.Same (if check q then change q else q) := by
    intro q
    split
    · exact same q
    · exact .refl q
  intro p' hereP q' hereQ owner type
  have changedP : p' ∈ db.peers.modify check change keeps := hereP
  have changedQ : q' ∈ db.peers.modify check change keeps := hereQ
  obtain ⟨p, listedP, rfl⟩ := Table.mem_modify.mp changedP
  obtain ⟨q, listedQ, rfl⟩ := Table.mem_modify.mp changedQ
  have ownerBefore : p.ownerId = q.ownerId :=
    (each p).2.1.trans (owner.trans (each q).2.1.symm)
  have typeBefore : p.type = q.type := (each p).2.2.trans (type.trans (each q).2.2.symm)
  rw [distinct p listedP q listedQ ownerBefore typeBefore]

theorem same_setOutMaxReadId (id : Nat) (q : Peer) : q.Same (q.setOutMaxReadId id) :=
  ⟨rfl, rfl, rfl⟩

variable (db) in
theorem grows_updateMaxReadId (self : Peer) (id : Nat) : Grows db (db.updateMaxReadId self id) := by
  unfold Db.updateMaxReadId
  split
  · exact .refl db
  · refine grows_modify fun q _ chosen => ⟨same_setOutMaxReadId id q, ?_⟩
    rw [Bool.and_eq_true, decide_eq_true_iff] at chosen
    exact Nat.le_of_lt chosen.2

theorem distinct_updateMaxReadId (distinct : Distinct db) (self : Peer) (id : Nat) :
    Distinct (db.updateMaxReadId self id) := by
  unfold Db.updateMaxReadId
  split
  · exact distinct
  · exact distinct_modify distinct (same_setOutMaxReadId id)

/-- The row reaches the position, however old the copy is that was looked at. -/
theorem le_updateMaxReadId {self : Peer} {id : Nat} {q : Peer}
    (copy : ∃ p ∈ db.peers, self.Same p ∧ self.outMaxReadId ≤ p.outMaxReadId)
    (here : q ∈ (db.updateMaxReadId self id).peers) (same : self.id = q.id) :
    id ≤ q.outMaxReadId := by
  obtain ⟨p, listed, own, le⟩ := copy
  unfold Db.updateMaxReadId at here
  split at here
  · have one : q = p := Table.eq_of_key_eq here listed (same.symm.trans own.1)
    rw [one]
    omega
  · have changed : q ∈ db.peers.modify (fun p => p.id == self.id && decide (p.outMaxReadId < id))
        (Peer.setOutMaxReadId id) fun _ => rfl := here
    obtain ⟨q₀, _, rfl⟩ := Table.mem_modify.mp changed
    split
    · exact Nat.le_refl id
    · rename_i left
      rw [if_neg left] at same
      rw [Bool.and_eq_true, beq_iff_eq, decide_eq_true_iff] at left
      by_contra below
      exact left ⟨same.symm, Nat.not_le.mp below⟩

theorem lookup_map_self {f : Nat → Nat} {keys : List Nat} {k : Nat} (here : k ∈ keys) :
    (keys.map fun k => (k, f k)).lookup k = some (f k) := by
  induction keys with
  | nil => cases here
  | cons first rest ih =>
    rw [List.map_cons, List.lookup_cons]
    by_cases same : k = first
    · rw [same, beq_self_eq_true]
    · rw [beq_false_of_ne same]
      exact ih ((List.mem_cons.mp here).resolve_left same)

theorem contains_keys (ids : List (Nat × Nat)) (k : Nat) :
    (ids.map Prod.fst).contains k = (ids.lookup k).isSome := by
  induction ids with
  | nil => rfl
  | cons first rest ih =>
    obtain ⟨j, n⟩ := first
    rw [List.map_cons, List.contains_cons, List.lookup_cons, ih]
    cases k == j <;> rfl

theorem lookup_idsByPeers {peer : Peer} {oldId contentId : Nat} {m : MessageRef}
    (taken : m ∈ db.rowsOfOthers peer oldId contentId) :
    ∃ n, (db.idsByPeers peer oldId contentId).lookup m.peerId = some n ∧ m.id ≤ n := by
  have own : m ∈ (db.rowsOfOthers peer oldId contentId).filter fun r => r.peerId == m.peerId :=
    List.mem_filter.mpr ⟨taken, beq_iff_eq.mpr rfl⟩
  exact ⟨_, lookup_map_self (List.mem_dedup.mpr (List.mem_map_of_mem taken)), le_maxIdOf own⟩

theorem mem_insertMany {m : MessageRef} {rows : List MessageRef} {t : Table MessageRef.id} :
    (m ∈ t → m ∈ t.insertMany rows) ∧ (m ∈ t.insertMany rows → m ∈ t ∨ m ∈ rows) := by
  rw [Table.mem_iff_get, Table.mem_iff_get, Table.get_insertMany]
  constructor
  · intro found
    rw [found, Option.some_or]
  · intro found
    cases old : t.get m.id with
    | some m' =>
      rw [old, Option.some_or] at found
      exact .inl found
    | none =>
      rw [old, Option.none_or] at found
      exact .inr (List.mem_of_find?_eq_some found)

theorem opposite_channel {peer : Peer} {channelId : Nat} (type : peer.type = .channel channelId) :
    db.opposite peer = [] := by
  unfold Db.opposite
  rw [type]

theorem grows_sync (db : Db) (peerIds : List Nat) : Grows db (db.syncLastMessageBulk peerIds) := by
  refine grows_modify fun q _ _ => ?_
  split
  · exact ⟨⟨rfl, rfl, rfl⟩, Nat.le_refl _⟩
  · exact ⟨.refl q, Nat.le_refl _⟩

theorem grows_createForPeers {peers : List Peer} {rows : List MessageRef}
    (each : ∀ m ∈ rows, (∀ old ∈ db.refs, old.content.id < m.content.id) ∨
      ∀ q ∈ db.peers, q.id = m.peerId → ∃ channelId, q.type = .channel channelId) :
    Grows db (db.createForPeers peers rows) := by
  have sync := grows_sync { db with refs := db.refs.insertMany rows } (peers.map Peer.id)
  refine ⟨fun m here => mem_insertMany.1 here, fun m here => ?_, sync.stays, sync.known⟩
  rcases mem_insertMany.2 here with old | new
  · exact .inl old
  · exact .inr (each m new)

theorem distinct_createForPeers (distinct : Distinct db) (peers : List Peer)
    (rows : List MessageRef) : Distinct (db.createForPeers peers rows) := by
  have kept : Distinct { db with refs := db.refs.insertMany rows } := distinct
  refine distinct_modify kept fun q => ?_
  split
  · exact ⟨rfl, rfl, rfl⟩
  · exact .refl q

theorem updateOthers_ok {selected : Nat → Bool} {idsByPeers : List (Nat × Nat)} {after : Db}
    (ran : db.updateOthers selected idsByPeers = .ok after) (distinct : Distinct db) :
    Grows db after ∧ Distinct after ∧ after.readStates = db.readStates ∧
      ∀ q' ∈ after.peers, ∃ q ∈ db.peers, q.Same q' ∧ q.outMaxReadId ≤ q'.outMaxReadId ∧
        (selected q'.id = true → (idsByPeers.lookup q'.id).getD 0 ≤ q'.outMaxReadId) := by
  rw [Db.updateOthers, check_bind_eq_ok] at ran
  obtain ⟨-, ran⟩ := ran
  cases ran
  refine ⟨grows_modify fun q _ chosen => ⟨same_setOutMaxReadId _ q, ?_⟩,
    distinct_modify distinct fun q => same_setOutMaxReadId _ q, rfl, fun q' here => ?_⟩
  · rw [Bool.and_eq_true, decide_eq_true_iff] at chosen
    exact Nat.le_of_lt chosen.2
  · obtain ⟨q, listed, changed⟩ := List.mem_map.mp (Table.mem_def.mp here)
    refine ⟨q, listed, ?_⟩
    rw [← changed]
    split
    · rename_i chosen
      rw [Bool.and_eq_true, decide_eq_true_iff] at chosen
      exact ⟨same_setOutMaxReadId _ q, Nat.le_of_lt chosen.2, fun _ => Nat.le_refl _⟩
    · rename_i left
      refine ⟨.refl q, Nat.le_refl _, fun chosen => ?_⟩
      by_contra below
      exact left (Bool.and_eq_true_iff.mpr ⟨chosen, decide_eq_true (Nat.not_le.mp below)⟩)

end Statements

/-- The row of the other user, of which the call has a copy. -/
structure Copied (db : Db) (peer other : Peer) : Prop where
  ofUser : ∃ userId, peer.type = .user userId
  isOther : peer.isOther other = true
  row : ∃ q ∈ db.peers, other.Same q ∧ other.outMaxReadId ≤ q.outMaxReadId

/-- What a call has read so far is still right. -/
def Stage.Fits (db : Db) : Stage → Prop
  | .updatingOwn l maxId contentId => Known db contentId ∧ l.lastMessageId < maxId
  | .saving l maxId contentId => Known db contentId ∧ l.lastMessageId < maxId
  | .channelSaving l unreadMaxId => l.lastMessageId ≤ unreadMaxId
  | .marking _ _ messageId lastMessageId => lastMessageId ≤ messageId
  | .telling _ contentId => Known db contentId
  | .findingOther l contentId other => Known db contentId ∧ Copied db l.peer other
  | .updatingOther l contentId other otherMaxOutId => Known db contentId ∧
      Copied db l.peer other ∧ ∀ m ∈ db.refs, m.peerId = other.id → m.content.id ≤ contentId →
        m.id ≤ other.outMaxReadId ∨ m.id ≤ otherMaxOutId
  | .updatingOthers l contentId idsByPeers => Known db contentId ∧
      ∀ q ∈ db.peers, l.peer.isOther q = true → ∀ m ∈ db.refs, m.peerId = q.id →
        m.content.id ≤ contentId → m.id ≤ q.outMaxReadId ∨
          ∃ n, idsByPeers.lookup q.id = some n ∧ m.id ≤ n
  | _ => True

/-- The call is for a peer of the user's own. -/
def Stage.Personal : Stage → Prop
  | .looking l => ∀ channelId, l.peer.type ≠ .channel channelId
  | .updatingOwn l _ _ => ∀ channelId, l.peer.type ≠ .channel channelId
  | .saving l _ _ => ∀ channelId, l.peer.type ≠ .channel channelId
  | .telling l _ => ∀ channelId, l.peer.type ≠ .channel channelId
  | _ => True

structure Reading.Inv (w : Reading) : Prop where
  log : ∀ e ∈ w.log, e.Fine w.db
  known : ∀ e ∈ w.log, ∀ contentId,
    e.outcome = .read contentId ∨ e.outcome = .ignored (some contentId) → Known w.db contentId
  calls : ∀ call stage, w.calls call = some stage → stage.Fits w.db ∧ stage.Personal
  distinct : Distinct w.db

section Invariant

variable {w : Reading}

theorem Copied.grows {before after : Db} {peer other : Peer} (grows : Grows before after)
    (copied : Copied before peer other) : Copied after peer other := by
  obtain ⟨q, listed, same, le⟩ := copied.row
  obtain ⟨q', here, same', le'⟩ := grows.stays q listed
  exact ⟨copied.ofUser, copied.isOther, q', here, same.trans same', Nat.le_trans le le'⟩

theorem Stage.Fits.grows {before after : Db} (grows : Grows before after) {stage : Stage}
    (fits : stage.Fits before) : stage.Fits after := by
  cases stage with
  | updatingOwn l maxId contentId => exact ⟨Known.grows grows fits.1, fits.2⟩
  | saving l maxId contentId => exact ⟨Known.grows grows fits.1, fits.2⟩
  | telling l contentId => exact Known.grows grows fits
  | findingOther l contentId other => exact ⟨fits.1.grows grows, fits.2.grows grows⟩
  | updatingOther l contentId other otherMaxOutId =>
    obtain ⟨known, copied, covers⟩ := fits
    refine ⟨known.grows grows, copied.grows grows, fun m stored ours upTo => ?_⟩
    obtain ⟨q', here, same, -⟩ := (copied.grows grows).row
    have isOther : l.peer.isOther q' = true := by
      rw [← isOther_congr (.refl l.peer) same]
      exact copied.isOther
    have old := (old_row grows known here isOther stored (ours.trans same.1) upTo).1
    exact covers m old ours upTo
  | updatingOthers l contentId idsByPeers =>
    obtain ⟨known, covers⟩ := fits
    refine ⟨known.grows grows, fun q' here isOther m stored ours upTo => ?_⟩
    obtain ⟨old, q, listed, same, le⟩ := old_row grows known here isOther stored ours upTo
    have isOther' : l.peer.isOther q = true := by
      rw [isOther_congr (.refl l.peer) same]
      exact isOther
    rcases covers q listed isOther' m old (ours.trans same.1.symm) upTo with below | told
    · exact .inl (Nat.le_trans below le)
    · rw [same.1] at told
      exact .inr told
  | channelSaving l unreadMaxId => exact fits
  | marking userId peerId messageId lastMessageId => exact fits
  | _ => trivial

theorem ReadEntry.Fine.grows {before after : Db} (grows : Grows before after) {e : ReadEntry}
    (known : ∀ contentId, e.outcome = .read contentId ∨ e.outcome = .ignored (some contentId) →
      Known before contentId) (fine : e.Fine before) : e.Fine after := by
  unfold ReadEntry.Fine at fine ⊢
  cases outcome : e.outcome with
  | read contentId =>
    rw [outcome] at fine known
    exact Covered.grows grows (known contentId (.inl rfl)) fine
  | ignored contentId =>
    rw [outcome] at fine known
    intro c ignored
    rw [ignored] at known
    exact Covered.grows grows (known c (.inr rfl)) (fine c ignored)
  | raised =>
    rw [outcome] at fine
    exact fine.elim

namespace Reading

theorem Inv.withDb (inv : w.Inv) {db : Db} (grows : Grows w.db db) (distinct : Distinct db) :
    (w.withDb db).Inv where
  log := fun e here => (inv.log e here).grows grows (inv.known e here)
  known := fun e here c upTo => (inv.known e here c upTo).grows grows
  calls := fun call stage here =>
    ⟨(inv.calls call stage here).1.grows grows, (inv.calls call stage here).2⟩
  distinct := distinct

theorem calls_goesOn (call c : Nat) (stage : Stage) :
    (w.goesOn call stage).calls c = if c = call then some stage else w.calls c :=
  Function.update_apply w.calls call (some stage) c

theorem calls_leaves (call c : Nat) :
    (w.leaves call).calls c = if c = call then none else w.calls c :=
  Function.update_apply w.calls call none c

theorem Inv.goesOn (inv : w.Inv) (call : Nat) {stage : Stage} (fits : stage.Fits w.db)
    (personal : stage.Personal) : (w.goesOn call stage).Inv where
  log := inv.log
  known := inv.known
  calls := by
    intro c s here
    rw [calls_goesOn] at here
    split at here
    · rw [← Option.some.inj here]
      exact ⟨fits, personal⟩
    · exact inv.calls c s here
  distinct := inv.distinct

theorem Inv.leaves (inv : w.Inv) (call : Nat) : (w.leaves call).Inv where
  log := inv.log
  known := inv.known
  calls := by
    intro c s here
    rw [calls_leaves] at here
    split at here
    · cases here
    · exact inv.calls c s here
  distinct := inv.distinct

theorem Inv.ends (inv : w.Inv) (call : Nat) (l : Started) {outcome : Outcome}
    (fine : ReadEntry.Fine w.db ⟨l.request, l.peer, outcome⟩)
    (known : ∀ contentId, outcome = .read contentId ∨ outcome = .ignored (some contentId) →
      Known w.db contentId) : (w.ends call l outcome).Inv where
  log := by
    intro e here
    rcases List.mem_append.mp here with old | new
    · exact inv.log e old
    · rw [List.mem_singleton.mp new]
      exact fine
  known := by
    intro e here
    rcases List.mem_append.mp here with old | new
    · exact inv.known e old
    · rw [List.mem_singleton.mp new]
      exact known
  calls := (inv.leaves call).calls
  distinct := inv.distinct

theorem Inv.ends_read (inv : w.Inv) (call : Nat) (l : Started) {contentId : Nat}
    (known : Known w.db contentId) (covered : Covered w.db l.peer contentId) :
    (w.ends call l (.read contentId)).Inv := by
  refine inv.ends call l covered fun c upTo => ?_
  rcases upTo with same | ignored
  · cases same
    exact known
  · cases ignored

/-- What a call for the peer that has ended has read is covered. -/
theorem Inv.covered (inv : w.Inv) {peer : Peer} {contentId : Nat}
    (read : w.ReadUpTo peer contentId) : Covered w.db peer contentId := by
  rcases read with own | ⟨e, here, same, many, read, fewer⟩
  · intro q _ other
    rw [Peer.isOther, own] at other
    cases other
  · have fine := inv.log e here
    rw [ReadEntry.Fine, read] at fine
    exact Covered.of_le fine fewer same

theorem Inv.ends_ignored (inv : w.Inv) (call : Nat) (l : Started) {contentId : Option Nat}
    (known : ∀ c, contentId = some c → Known w.db c)
    (before : ∀ c, contentId = some c → w.ReadUpTo l.peer c) :
    (w.ends call l (.ignored contentId)).Inv := by
  refine inv.ends call l (fun c upTo => inv.covered (before c upTo)) fun c upTo => ?_
  · rcases upTo with read | same
    · cases read
    · exact known c (Outcome.ignored.inj same)

end Reading

end Invariant

theorem Advances.refl (db : Db) : Advances db db where
  inbox := fun _ _ => Nat.le_refl _
  outbox := fun q here => ⟨q, here, .refl q, Nat.le_refl _⟩

theorem Advances.trans {first second third : Db} (before : Advances first second)
    (after : Advances second third) : Advances first third where
  inbox := fun u p => Nat.le_trans (before.inbox u p) (after.inbox u p)
  outbox := fun q here => by
    obtain ⟨q', here', same, le⟩ := before.outbox q here
    obtain ⟨q'', here'', same', le'⟩ := after.outbox q' here'
    exact ⟨q'', here'', same.trans same', Nat.le_trans le le'⟩

theorem Advances.of_grows {before after : Db} (grows : Grows before after)
    (same : ∀ u p, after.readId u p = before.readId u p) : Advances before after where
  inbox := fun u p => Nat.le_of_eq (same u p).symm
  outbox := grows.stays

section Steps

variable {exact : List Nat → Except Failure (Nat → Bool)} {w t : Reading} {call : Nat}

theorem grows_readStates {db after : Db} (refs : after.refs = db.refs)
    (peers : after.peers = db.peers) : Grows db after := by
  have same := Grows.refl db
  refine ⟨?_, ?_, ?_, ?_⟩
  · rw [refs]
    exact same.refs
  · rw [refs]
    exact same.newer
  · rw [peers]
    exact same.stays
  · rw [refs, peers]
    exact same.known

theorem grows_getOrCreate (db : Db) (userId peerId : Nat) :
    Grows db (db.getOrCreateReadState userId peerId) := by
  unfold Db.getOrCreateReadState
  split
  · exact .refl db
  · exact grows_readStates rfl rfl

theorem distinct_getOrCreate {db : Db} (distinct : Distinct db) (userId peerId : Nat) :
    Distinct (db.getOrCreateReadState userId peerId) := by
  unfold Db.getOrCreateReadState
  split
  · exact distinct
  · exact distinct

namespace Reading

theorem Inv.getOrCreate (inv : w.Inv) (userId peerId : Nat) :
    (w.withDb (w.db.getOrCreateReadState userId peerId)).Inv ∧
      Advances w.db (w.db.getOrCreateReadState userId peerId) := by
  have grows := grows_getOrCreate w.db userId peerId
  exact ⟨inv.withDb grows (distinct_getOrCreate inv.distinct userId peerId),
    .of_grows grows readId_getOrCreate⟩

theorem Inv.saveReadState (inv : w.Inv) {userId peerId id : Nat}
    (forward : w.db.readId userId peerId ≤ id) :
    (w.withDb (w.db.saveReadState userId peerId id)).Inv ∧
      Advances w.db (w.db.saveReadState userId peerId id) := by
  have grows : Grows w.db (w.db.saveReadState userId peerId id) := grows_readStates rfl rfl
  exact ⟨inv.withDb grows inv.distinct, le_readId_saveReadState forward, grows.stays⟩

theorem Inv.updateMaxReadId (inv : w.Inv) (self : Peer) (id : Nat) :
    (w.withDb (w.db.updateMaxReadId self id)).Inv ∧
      Advances w.db (w.db.updateMaxReadId self id) := by
  have grows := grows_updateMaxReadId w.db self id
  refine ⟨inv.withDb grows (distinct_updateMaxReadId inv.distinct self id), .of_grows grows ?_⟩
  intro u p
  unfold Db.updateMaxReadId
  split <;> rfl

theorem inputPeer_personal {db : Db} {r : ReadHistory} {peer : Peer}
    (found : db.inputPeer r false = some peer) (channelId : Nat) :
    peer.type ≠ .channel channelId := by
  intro type
  have passes := (Option.filter_eq_some_iff.mp found).2
  rw [type] at passes
  cases passes

theorem known_newestRow {db : Db} {peerId maxId : Nat} {m : MessageRef}
    (found : db.newestRow peerId maxId = some m) : Known db m.content.id :=
  ⟨m, (mem_of_newestRow found).1, Nat.le_refl _⟩

theorem read_keeps (inv : w.Inv) (r : ReadHistory) (proper : w.Proper exact (.read call r)) :
    (w.read call r).Inv ∧ Advances w.db (w.read call r).db := by
  unfold Reading.read
  split
  · exact ⟨inv, .refl w.db⟩
  · rename_i peer found
    obtain ⟨made, advances⟩ := inv.getOrCreate r.userId peer.id
    dsimp only
    split
    · rename_i behind
      refine ⟨made.ends_ignored call _ (fun c upTo => ?_) (fun c upTo => ?_), advances⟩
      · obtain ⟨m, row, rfl⟩ := Option.map_eq_some_iff.mp upTo
        exact (known_newestRow row).grows (grows_getOrCreate w.db r.userId peer.id)
      · obtain ⟨m, row, rfl⟩ := Option.map_eq_some_iff.mp upTo
        exact proper peer found behind.1 behind.2 m row
    · exact ⟨made.goesOn call trivial (inputPeer_personal found), advances⟩

theorem readChannel_keeps (inv : w.Inv) (r : ReadHistory) :
    (w.readChannel call r).Inv ∧ Advances w.db (w.readChannel call r).db := by
  unfold Reading.readChannel
  split
  · exact ⟨inv, .refl w.db⟩
  · rename_i peer found
    obtain ⟨made, advances⟩ := inv.getOrCreate r.userId peer.id
    dsimp only
    split
    · exact ⟨made, advances⟩
    · exact ⟨made.goesOn call trivial trivial, advances⟩

theorem createPeer_keeps (inv : w.Inv) {peer : Peer} (happens : w.createPeer peer = some t) :
    t.Inv ∧ Advances w.db t.db := by
  unfold Reading.createPeer at happens
  split at happens
  · rename_i new
    cases happens
    have others : ∀ q ∈ w.db.peers, q.id ≠ peer.id ∧
        ¬ (q.ownerId = peer.ownerId ∧ q.type = peer.type) := by
      intro q here
      have passes := List.all_eq_true.mp new.1 q here
      rw [Bool.and_eq_true, bne_iff_ne, Bool.not_eq_true', Bool.and_eq_false_iff] at passes
      refine ⟨passes.1, fun same => ?_⟩
      rcases passes.2 with owner | type
      · exact absurd (beq_iff_eq.mpr same.1) (Bool.eq_false_iff.mp owner)
      · exact absurd (beq_iff_eq.mpr same.2) (Bool.eq_false_iff.mp type)
    have fresh : w.db.peers.get peer.id = none :=
      Table.get_eq_none_iff.mpr fun q here => (others q here).1
    have grows : Grows w.db { w.db with peers := w.db.peers.insert peer } := by
      refine ⟨fun _ here => here, fun _ here => .inl here, fun q here => ?_, fun q' here => ?_⟩
      · exact ⟨q, (Table.mem_insert fresh).mpr (.inl here), .refl q, Nat.le_refl _⟩
      · rcases (Table.mem_insert fresh).mp here with old | rfl
        · exact .inl ⟨q', old, .refl q', Nat.le_refl _⟩
        · exact .inr fun m stored => bne_iff_ne.mp (List.all_eq_true.mp new.2 m stored)
    refine ⟨inv.withDb grows fun p hereP q hereQ owner type => ?_, .of_grows grows fun _ _ => rfl⟩
    rcases (Table.mem_insert fresh).mp hereP with oldP | rfl
    · rcases (Table.mem_insert fresh).mp hereQ with oldQ | rfl
      · exact inv.distinct p oldP q oldQ owner type
      · exact absurd ⟨owner, type⟩ (others p oldP).2
    · rcases (Table.mem_insert fresh).mp hereQ with oldQ | rfl
      · exact absurd ⟨owner.symm, type.symm⟩ (others q oldQ).2
      · rfl
  · cases happens

theorem send_keeps (inv : w.Inv) {userId peerId : Nat} {opposite : Bool} {content : MessageContent}
    {rows : List MessageRef}
    (proper : w.Proper exact (.send call userId peerId opposite content rows))
    (happens : w.send call userId peerId opposite content rows = some t) :
    t.Inv ∧ Advances w.db t.db := by
  obtain ⟨peer, found, happens⟩ := Option.bind_eq_some_iff.mp happens
  obtain ⟨_, checked, happens⟩ := Option.bind_eq_some_iff.mp happens
  obtain ⟨own, -, happens⟩ := Option.bind_eq_some_iff.mp happens
  cases happens
  have grows : Grows w.db (w.db.createForPeers
      (peer :: (if opposite then w.db.opposite peer else [])) rows) := by
    obtain ⟨targets, same, -⟩ := (Option.guard_eq_some' _).mp checked
    refine grows_createForPeers fun m here => ?_
    have content_eq : m.content = content := beq_iff_eq.mp (List.all_eq_true.mp same m here)
    by_cases inChannel : ∃ channelId, peer.type = .channel channelId
    · -- A channel has one peer for all its members.
      obtain ⟨channelId, type⟩ := inChannel
      refine .inr fun q listed named => ⟨channelId, ?_⟩
      have alone : (if opposite then w.db.opposite peer else []) = [] := by
        split
        · exact opposite_channel type
        · rfl
      have target : m.peerId ∈ rows.map MessageRef.peerId := List.mem_map_of_mem here
      rw [targets, alone, List.map_singleton, List.mem_singleton] at target
      obtain ⟨stored, -⟩ := Table.get_eq_some_iff.mp found
      rw [Table.eq_of_key_eq listed stored (named.trans target)]
      exact type
    · refine .inl fun old stored => ?_
      rw [content_eq]
      exact proper peer found (fun channelId type => inChannel ⟨channelId, type⟩) old stored
  exact ⟨(inv.withDb grows (distinct_createForPeers inv.distinct _ rows)).goesOn call trivial
    trivial, .of_grows grows fun _ _ => rfl⟩

theorem copied_of_otherReadState {db : Db} {peer other : Peer} {userId : Nat}
    (type : peer.type = .user userId) (found : db.otherReadState peer = some other) :
    Copied db peer other := by
  have passes := List.find?_some found
  rw [Bool.and_eq_true] at passes
  exact ⟨⟨userId, type⟩, passes.1, other, List.mem_of_find?_eq_some found, .refl other,
    Nat.le_refl _⟩

theorem other_unique {db : Db} (distinct : Distinct db) {peer other q : Peer}
    (copied : Copied db peer other) (here : q ∈ db.peers) (isOther : peer.isOther q = true) :
    other.Same q ∧ other.outMaxReadId ≤ q.outMaxReadId := by
  obtain ⟨userId, type⟩ := copied.ofUser
  obtain ⟨p, listed, same, le⟩ := copied.row
  have otherP : peer.isOther p = true := by
    rw [← isOther_congr (.refl peer) same]
    exact copied.isOther
  unfold Peer.isOther at isOther otherP
  rw [type] at isOther otherP
  dsimp only at isOther otherP
  rw [Bool.and_eq_true, beq_iff_eq, Option.any_eq_true] at isOther otherP
  obtain ⟨ownerQ, owner, named, typeQ⟩ := isOther
  obtain ⟨ownerP, owner', named', typeP⟩ := otherP
  rw [named] at named'
  cases named'
  have one : p = q := distinct p listed q here (ownerP.trans ownerQ.symm)
    ((beq_iff_eq.mp typeP).trans (beq_iff_eq.mp typeQ).symm)
  rw [← one]
  exact ⟨same, le⟩

theorem telling_keeps (inv : w.Inv) {l : Started} {contentId : Nat}
    (known : Known w.db contentId) (personal : ∀ channelId, l.peer.type ≠ .channel channelId)
    (proper : w.ProperStage exact (.telling l contentId)) :
    (w.go exact call (.telling l contentId)).Inv ∧
      Advances w.db (w.go exact call (.telling l contentId)).db := by
  unfold Reading.go
  unfold Reading.ProperStage at proper
  dsimp only at proper ⊢
  cases type : l.peer.type with
  | self =>
    refine ⟨inv.ends_read call l known fun q _ other => ?_, .refl w.db⟩
    rw [Peer.isOther, type] at other
    cases other
  | user userId =>
    rw [type] at proper
    dsimp only
    cases found : w.db.otherReadState l.peer with
    | none =>
      -- Without a read state the other user has no peer.
      refine ⟨inv.ends_read call l known fun q here other => ?_, .refl w.db⟩
      obtain ⟨state, listed, owner, named⟩ := proper q here other
      have passed := List.find?_eq_none.mp found q here
      have owned : q.ownerId = some userId := by
        rw [Peer.isOther, type] at other
        exact beq_iff_eq.mp (Bool.and_eq_true_iff.mp other).1
      refine absurd (Bool.and_eq_true_iff.mpr ⟨other, ?_⟩) passed
      refine List.any_eq_true.mpr ⟨state, listed, ?_⟩
      rw [owned, owner, named, beq_self_eq_true, beq_self_eq_true, Bool.and_true]
    | some other =>
      exact ⟨inv.goesOn call ⟨known, copied_of_otherReadState type found⟩ trivial, .refl w.db⟩
  | chat chatId =>
    rw [type] at proper
    refine ⟨inv.goesOn call ⟨known, fun q here other m stored ours upTo => ?_⟩ trivial,
      .refl w.db⟩
    by_cases behind : m.id ≤ l.lastMessageId
    · exact .inl (inv.covered (proper q here other m stored ours upTo behind) q here other m stored
        ours (Nat.le_refl _))
    · have other' := other
      rw [Peer.isOther, type, Bool.and_eq_true, beq_iff_eq, bne_iff_ne] at other'
      have taken : m ∈ w.db.rowsOfOthers l.peer l.lastMessageId contentId := by
        refine List.mem_filter.mpr ⟨stored, ?_⟩
        rw [ours, Table.mem_iff_get.mp here, Option.any_some, type, other'.1, beq_self_eq_true,
          bne_iff_ne.mpr other'.2, decide_eq_true (Nat.not_le.mp behind), decide_eq_true upTo]
        rfl
      obtain ⟨n, told, le⟩ := lookup_idsByPeers taken
      rw [ours] at told
      exact .inr ⟨n, told, le⟩
  | channel channelId => exact absurd type (personal channelId)

theorem updatingOthers_keeps (inv : w.Inv) {l : Started} {contentId : Nat}
    {ids : List (Nat × Nat)} (fits : Stage.Fits w.db (.updatingOthers l contentId ids))
    (proper : w.ProperStage exact (.updatingOthers l contentId ids)) :
    (w.go exact call (.updatingOthers l contentId ids)).Inv ∧
      Advances w.db (w.go exact call (.updatingOthers l contentId ids)).db := by
  obtain ⟨selected, exactly, named⟩ := proper
  have known := fits.1
  cases ran : w.db.updateOthers selected ids with
  | error failure =>
    have keys : (w.db.peers.rows.all fun q => !selected q.id || (ids.lookup q.id).isSome) =
        true := by
      refine List.all_eq_true.mpr fun q _ => ?_
      rw [named, contains_keys]
      cases (ids.lookup q.id).isSome <;> rfl
    rw [Db.updateOthers, keys] at ran
    cases ran
  | ok db =>
    obtain ⟨grows, distinct, states, raised⟩ := updateOthers_ok ran inv.distinct
    have made := inv.withDb grows distinct
    have bound : (exact (ids.map Prod.fst) >>= fun selected => w.db.updateOthers selected ids) =
        .ok db := by
      rw [exactly]
      exact ran
    rw [Reading.go, bound]
    refine ⟨made.ends_read call l (known.grows grows) fun q' here other m stored ours upTo => ?_,
      .of_grows grows fun u p => ?_⟩
    · have told := (Stage.Fits.grows grows fits).2 q' here other m stored ours upTo
      rcases told with below | ⟨n, told, le⟩
      · exact below
      · obtain ⟨q, -, -, -, reached⟩ := raised q' here
        have chosen : selected q'.id = true := by
          rw [named, contains_keys, told, Option.isSome_some]
        have reaches := reached chosen
        rw [told, Option.getD_some] at reaches
        exact Nat.le_trans le reaches
    · show db.readId u p = w.db.readId u p
      rw [Db.readId, states, Db.readId]

theorem findingOther_keeps (inv : w.Inv) {l : Started} {contentId : Nat} {other : Peer}
    (fits : Stage.Fits w.db (.findingOther l contentId other)) :
    (w.go exact call (.findingOther l contentId other)).Inv ∧
      Advances w.db (w.go exact call (.findingOther l contentId other)).db := by
  obtain ⟨known, copied⟩ := fits
  have covers : ∀ m ∈ w.db.refs, m.peerId = other.id → m.content.id ≤ contentId →
      m.id ≤ other.outMaxReadId ∨ m.id ≤ w.db.otherMaxOutId other contentId := by
    intro m stored ours upTo
    by_cases behind : m.id ≤ other.outMaxReadId
    · exact .inl behind
    · refine .inr (le_maxIdOf (List.mem_filter.mpr ⟨stored, ?_⟩))
      rw [ours, beq_self_eq_true, decide_eq_true (Nat.not_le.mp behind), decide_eq_true upTo]
      rfl
  unfold Reading.go
  dsimp only
  split
  · rename_i nothing
    refine ⟨inv.ends_read call l known fun q here isOther m stored ours upTo => ?_, .refl w.db⟩
    obtain ⟨same, le⟩ := other_unique inv.distinct copied here isOther
    have reach := covers m stored (ours.trans same.1.symm) upTo
    omega
  · exact ⟨inv.goesOn call ⟨known, copied, covers⟩ trivial, .refl w.db⟩

theorem updatingOther_keeps (inv : w.Inv) {l : Started} {contentId newest : Nat} {other : Peer}
    (fits : Stage.Fits w.db (.updatingOther l contentId other newest)) :
    (w.go exact call (.updatingOther l contentId other newest)).Inv ∧
      Advances w.db (w.go exact call (.updatingOther l contentId other newest)).db := by
  obtain ⟨made, advances⟩ := inv.updateMaxReadId other newest
  have grows := grows_updateMaxReadId w.db other newest
  obtain ⟨known, copied, covers⟩ := Stage.Fits.grows grows fits
  refine ⟨made.ends_read call l known fun q here isOther m stored ours upTo => ?_, advances⟩
  obtain ⟨same, le⟩ := other_unique made.distinct copied here isOther
  have reached := le_updateMaxReadId fits.2.1.row here same.1
  have reach := covers m stored (ours.trans same.1.symm) upTo
  omega

theorem go_keeps (inv : w.Inv) {stage : Stage} (here : w.calls call = some stage)
    (proper : w.ProperStage exact stage) :
    (w.go exact call stage).Inv ∧ Advances w.db (w.go exact call stage).db := by
  obtain ⟨fits, personal⟩ := inv.calls call stage here
  cases stage with
  | looking l =>
    obtain ⟨m, found, before⟩ := proper
    have known := known_newestRow found
    unfold Reading.go
    dsimp only
    rw [found]
    dsimp only
    split
    · rename_i behind
      refine ⟨inv.ends_ignored call l (fun c upTo => ?_) (fun c upTo => ?_), .refl w.db⟩
      · cases upTo
        exact known
      · cases upTo
        exact before behind
    · rename_i ahead
      rw [not_or, Nat.not_le] at ahead
      split
      · exact ⟨inv.goesOn call ⟨known, ahead.2⟩ personal, .refl w.db⟩
      · exact ⟨inv.goesOn call ⟨known, ahead.2⟩ personal, .refl w.db⟩
  | updatingOwn l maxId contentId =>
    obtain ⟨made, advances⟩ := inv.updateMaxReadId l.peer maxId
    have known := fits.grows (grows_updateMaxReadId w.db l.peer maxId)
    exact ⟨made.goesOn call known personal, advances⟩
  | saving l maxId contentId =>
    have forward := Nat.le_of_lt fits.2
    rw [← show w.db.readId l.request.userId l.peer.id = l.lastMessageId from proper] at forward
    obtain ⟨made, advances⟩ := inv.saveReadState forward
    exact ⟨made.goesOn call fits.1 personal, advances⟩
  | telling l contentId => exact telling_keeps inv fits personal proper
  | findingOther l contentId other => exact findingOther_keeps inv fits
  | updatingOther l contentId other newest => exact updatingOther_keeps inv fits
  | updatingOthers l contentId ids => exact updatingOthers_keeps inv fits proper
  | channelLooking l =>
    unfold Reading.go
    dsimp only
    split
    · exact ⟨inv.leaves call, .refl w.db⟩
    · rename_i m found
      have forward : l.lastMessageId ≤ m.id := by
        obtain ⟨taken, newer⟩ := le_newestVisible found
        obtain ⟨n, listed, le⟩ := proper (List.ne_nil_of_mem taken)
        exact Nat.le_trans le (newer n listed)
      exact ⟨inv.goesOn call forward trivial, .refl w.db⟩
  | channelSaving l unreadMaxId =>
    have forward : l.lastMessageId ≤ unreadMaxId := fits
    rw [← show w.db.readId l.request.userId l.peer.id = l.lastMessageId from proper] at forward
    obtain ⟨made, advances⟩ := inv.saveReadState forward
    exact ⟨made.goesOn call trivial trivial, advances⟩
  | channelTelling l unreadMaxId => exact ⟨inv.goesOn call trivial trivial, .refl w.db⟩
  | channelFinding l unreadMaxId prevLastId =>
    unfold Reading.go
    dsimp only
    split
    · exact ⟨inv.goesOn call trivial trivial, .refl w.db⟩
    · exact ⟨inv.leaves call, .refl w.db⟩
  | channelUpdating l unreadMaxId =>
    obtain ⟨made, advances⟩ := inv.updateMaxReadId l.peer unreadMaxId
    exact ⟨made.leaves call, advances⟩
  | counting userId peerId messageId =>
    obtain ⟨made, advances⟩ := inv.getOrCreate userId peerId
    unfold Reading.go
    dsimp only
    split
    · rename_i nothing
      have behind : w.db.readId userId peerId ≤ messageId := proper nothing
      exact ⟨made.goesOn call behind trivial, advances⟩
    · exact ⟨made.leaves call, advances⟩
  | marking userId peerId messageId lastMessageId =>
    obtain ⟨made, advances⟩ := inv.getOrCreate userId peerId
    have forward :
        (w.db.getOrCreateReadState userId peerId).readId userId peerId ≤ messageId := by
      rw [readId_getOrCreate, show w.db.readId userId peerId = lastMessageId from proper]
      exact fits
    obtain ⟨saved, further⟩ := made.saveReadState forward
    exact ⟨saved.leaves call, advances.trans further⟩

theorem step_keeps {e : ReadEvent} (inv : w.Inv) (proper : w.Proper exact e)
    (happens : Reading.step exact w e = some t) : t.Inv ∧ Advances w.db t.db := by
  cases e with
  | read call r =>
    cases happens
    exact read_keeps inv r proper
  | readChannel call r =>
    cases happens
    exact readChannel_keeps inv r
  | send call userId peerId opposite content rows => exact send_keeps inv proper happens
  | createPeer peer => exact createPeer_keeps inv happens
  | go call =>
    obtain ⟨stage, here, rfl⟩ := Option.map_eq_some_iff.mp happens
    exact go_keeps inv here (proper stage here)

/-- No call is under way, and what those that have ended have read is covered. -/
structure Begins (w : Reading) : Prop where
  idle : ∀ call, w.calls call = none
  log : ∀ e ∈ w.log, e.Fine w.db
  known : ∀ e ∈ w.log, ∀ contentId,
    e.outcome = .read contentId ∨ e.outcome = .ignored (some contentId) → Known w.db contentId
  distinct : Distinct w.db

theorem Begins.inv (begins : w.Begins) : w.Inv where
  log := begins.log
  known := begins.known
  calls := fun call _ here => by rw [begins.idle call] at here; cases here
  distinct := begins.distinct

theorem begins_begin {db : Db} (distinct : Distinct db) : (Reading.begin db).Begins where
  idle := fun _ => rfl
  log := fun _ here => by cases here
  known := fun _ here => by cases here
  distinct := distinct

theorem proper_go {stage : Stage} (here : w.calls call = some stage)
    (proper : w.ProperStage exact stage) : w.Proper exact (.go call) := by
  intro other same
  rw [here] at same
  rw [← Option.some.inj same]
  exact proper

end Reading

end Steps

/-- In a run no position goes back, and what calls have read when they end is covered from then
on. -/
structure ReadsForward (exact : List Nat → Except Failure (Nat → Bool)) (w : Reading)
    (es : List ReadEvent) : Prop where
  forward : StepsKeep (Reading.step exact) (fun w t => Advances w.db t.db) w es
  ended : HoldsAlong (Reading.step exact) (fun w => ∀ e ∈ w.log, e.Fine w.db) w es

/-- The first user has read nothing of the second, who has sent one message. -/
private def pairDb : Db where
  peers := Table.insertMany Table.empty
    [⟨81, some 1, .user 2, some 102, none, 0⟩, ⟨82, some 2, .user 1, some 101, none, 0⟩]
  channels := Table.empty
  participants := Table.empty
  mentions := []
  readStates := [⟨2, 82, 0⟩]
  dialogs := []
  refs := Table.insertMany Table.empty
    [⟨101, 82, ⟨7, .regular, 2, [], 0, none, false, none⟩, false, none, none⟩,
      ⟨102, 81, ⟨7, .regular, 2, [], 0, none, false, none⟩, false, none, none⟩]

/-- An exact filter that selects what is in the list. -/
private def among (ids : List Nat) : Except Failure (Nat → Bool) := .ok fun id => ids.contains id

/-- A peer without messages. -/
private def emptyDb : Db where
  peers := Table.insert Table.empty ⟨83, some 1, .chat 9, none, none, 0⟩
  channels := Table.empty
  participants := Table.empty
  mentions := []
  readStates := []
  dialogs := []
  refs := Table.empty

end Piltover.History
