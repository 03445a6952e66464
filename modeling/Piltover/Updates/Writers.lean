/- source: piltover/app/utils/updates_manager.py, piltover/app/handlers/updates.py
   digest: The operations of updates_manager as the writers that a getDifference runs among. -/

import Piltover.Updates.DifferenceRace
import Piltover.Updates.PtsChain

set_option autoImplicit false

namespace Piltover.Updates.Manager

open Piltover.Foundation
open Piltover.Foundation.Runs
open Piltover.Updates.State

/-- Rows at pts of their own, beyond `pts` and up to `newPts`. -/
structure Reserved (pts newPts : Int) (rows : List Row) : Prop where
  ascending : rows.Pairwise fun a b => a.pts < b.pts
  within : ∀ row ∈ rows, pts < row.pts ∧ row.pts ≤ newPts

namespace Reserved

variable {pts middle newPts : Int}

theorem nothing : Reserved pts newPts [] where
  ascending := List.Pairwise.nil
  within := by
    intro row listed
    cases listed

theorem one {row : Row} (later : pts < row.pts) (upTo : row.pts ≤ newPts) :
    Reserved pts newPts [row] where
  ascending := List.pairwise_singleton _ _
  within := by
    intro other listed
    cases List.mem_singleton.mp listed
    exact ⟨later, upTo⟩

theorem append {l m : List Row} (first : Reserved pts middle l) (second : Reserved middle newPts m)
    (after : pts ≤ middle) (before : middle ≤ newPts) : Reserved pts newPts (l ++ m) where
  ascending := by
    refine List.pairwise_append.mpr ⟨first.ascending, second.ascending, ?_⟩
    intro a inFirst b inSecond
    exact (first.within a inFirst).2.trans_lt (second.within b inSecond).1
  within := by
    intro row listed
    rcases List.mem_append.mp listed with inFirst | inSecond
    · have := first.within row inFirst
      omega
    · have := second.within row inSecond
      omega

/-- A call that raises has no rows. -/
theorem ite_raises {raises : Bool} {rows : List Row} (reserved : Reserved pts newPts rows) :
    Reserved pts newPts (if raises then [] else rows) := by
  cases raises with
  | true => exact .nothing
  | false => exact reserved

/-- As `get_difference` reads them, the rows have distinct pts up to `newPts`. -/
theorem stored {rows : List Row} (reserved : Reserved pts newPts rows) (date : Row → Int) :
    ((rows.map fun row => row.stored (date row)).map Update.pts).Nodup ∧
      ∀ update ∈ rows.map (fun row => row.stored (date row)), pts < update.pts ∧ update.pts ≤ newPts := by
  constructor
  · rw [List.map_map]
    refine List.pairwise_map.mpr (reserved.ascending.imp ?_)
    intro a b earlier
    exact ne_of_lt earlier
  · intro update listed
    obtain ⟨row, mem, rfl⟩ := List.mem_map.mp listed
    exact reserved.within row mem

end Reserved

theorem newMessageRows_reserved (userId : Nat) (message : MessageRef) (pts : Int) :
    Reserved pts (pts + message.ptsCount)
      (newMessageRows userId message (pts + message.ptsCount)) := by
  rw [newMessageRows, MessageRef.ptsCount]
  cases message.truthyRandomId with
  | none => exact .one (Int.lt_succ pts) (le_refl _)
  | some randomId =>
    have identifier : Reserved pts (pts + 1)
        [Row.updateMessageId userId (pts + 2 - 1) message randomId] :=
      .one (by simp only [Row.updateMessageId]; omega) (by simp only [Row.updateMessageId]; omega)
    have new : Reserved (pts + 1) (pts + 2) [Row.newMessage userId (pts + 2) message] :=
      .one (by simp only [Row.newMessage]; omega) (le_refl _)
    exact identifier.append new (by omega) (by omega)

theorem sendMessagesRows_reserved (userId : Nat) (messages : List MessageRef) (pts : Int) :
    Reserved pts (pts + ptsCounts messages) (sendMessagesRows userId pts messages) := by
  induction messages generalizing pts with
  | nil => exact .nothing
  | cons message rest ih =>
    have total : pts + ptsCounts (message :: rest) =
        pts + message.ptsCount + ptsCounts rest := by
      rw [ptsCounts_cons, add_assoc]
    have counted := message.ptsCount_pos
    have more := ptsCounts_nonneg rest
    rw [sendMessagesRows, total]
    exact (newMessageRows_reserved userId message pts).append (ih (pts + message.ptsCount))
      (by omega) (by omega)

theorem pinMessages_reserved (item : Peer × List MessageRef) (pts : Int) :
    Reserved pts (pts + item.2.length)
      ((pinMessagesPart item).rows (pts + item.2.length)) := by
  have total := length_idsWhere item.2
  have pinned : Reserved pts (pts + (idsWhere true item.2).length)
      (if (idsWhere true item.2).length ≠ 0 then
        [Row.pinMessages item.1.ownerId (pts + item.2.length - (idsWhere false item.2).length)
          (idsWhere true item.2).length item.1 (idsWhere true item.2)] else []) := by
    split
    · exact .one (by simp only [Row.pinMessages]; omega) (by simp only [Row.pinMessages]; omega)
    · exact .nothing
  have unpinned : Reserved (pts + (idsWhere true item.2).length) (pts + item.2.length)
      (if (idsWhere false item.2).length ≠ 0 then
        [Row.unpinMessages item.1.ownerId (pts + item.2.length)
          (idsWhere false item.2).length item.1 (idsWhere false item.2)] else []) := by
    split
    · exact .one (by simp only [Row.unpinMessages]; omega) (le_refl _)
    · exact .nothing
  exact pinned.append unpinned (by omega) (by omega)

/-- Every delete for the user is of something: one of no messages stores a row all the same, at the pts
of another row. -/
def Operation.StoresNew (userId : Nat) : Operation → Prop
  | .deleteMessages _ messages => ∀ item ∈ messages.entries, item.1 = userId → item.2 ≠ []
  | _ => True

section Step

variable {server after : Server} {op : Operation} {userId : Nat} {pts : Int}

theorem part_reserved {part : Part} (listed : part ∈ op.parts) (new : op.StoresNew part.userId) :
    Reserved pts (pts + part.ptsCount) (part.rows (pts + part.ptsCount)) := by
  cases op with
  | sendMessage =>
    obtain ⟨item, _, rfl⟩ := List.mem_map.mp listed
    exact (newMessageRows_reserved item.1.ownerId item.2 pts).ite_raises
  | sendMessages =>
    obtain ⟨item, _, rfl⟩ := List.mem_map.mp listed
    have reserved := sendMessagesRows_reserved item.1.ownerId item.2 pts
    simp only [sendMessagesPart, add_sub_cancel_right]
    exact reserved.ite_raises
  | deleteMessages currentUserId messages =>
    obtain ⟨item, mem, rfl⟩ := List.mem_map.mp listed
    have something : 0 < item.2.length := List.length_pos_iff.mpr (new item mem rfl)
    refine .one ?_ (le_refl _)
    simp only [deleteMessagesPart, Row.messageDelete]
    omega
  | editMessage =>
    obtain ⟨item, _, rfl⟩ := List.mem_map.mp listed
    have reserved : Reserved pts (pts + 1) [Row.messageEdit item.1.ownerId (pts + 1) item.2] :=
      .one (Int.lt_succ pts) (le_refl _)
    exact reserved.ite_raises
  | pinMessages =>
    obtain ⟨item, _, rfl⟩ := List.mem_map.mp listed
    exact pinMessages_reserved item pts
  | updateReadHistoryInbox =>
    cases List.mem_singleton.mp listed
    exact .one (Int.lt_succ pts) (le_refl _)

theorem step_reserves (known : server.statePts userId = some pts)
    (happens : server.step op = some after) (new : op.StoresNew userId) :
    ∃ newPts rows, pts ≤ newPts ∧ after.statePts userId = some newPts ∧
      after.rowsOf userId = server.rowsOf userId ++ rows ∧ Reserved pts newPts rows := by
  rcases step_parts known happens with ⟨part, listed, rfl, done⟩ | ⟨_, untouched⟩
  · have counted := op.parts_wellFormed.counted part listed
    exact ⟨_, _, by omega, done.statePts, done.rowsOf, part_reserved listed new⟩
  · refine ⟨pts, [], le_refl pts, untouched.statePts.trans known, ?_, .nothing⟩
    rw [untouched.rowsOf, List.append_nil]

/-- A writer that raises `State.pts` to `newPts` and stores its rows before any other step. -/
theorem Reserved.race {υ : Type} (toTl : Update → Option υ) (ctx : RequestContext) {r : Race υ}
    {newPts : Int} {rows : List Row} (reserved : Reserved pts newPts rows) (raises : pts ≤ newPts)
    (same : r.db.statePts = some pts) (date : Row → Int) :
    ∃ t, runFrom (Race.step toTl ctx) r
        [.addPts (newPts - pts) (rows.map fun row => row.stored (date row)), .storeRows r.pending.length] =
          some t ∧
      t.db.statePts = some newPts ∧
      t.db.updates = r.db.updates ++ (rows.map fun row => row.stored (date row)) ∧
      t.pending = r.pending ∧ t.reader = r.reader := by
  have reached : State.addPts pts (newPts - pts) = newPts := by
    rw [State.addPts_of_nonneg pts (by omega)]
    omega
  obtain ⟨distinct, within⟩ := reserved.stored date
  generalize (rows.map fun row => row.stored (date row)) = stored at distinct within ⊢
  have raised : Race.step toTl ctx r (.addPts (newPts - pts) stored) = some
      { r with
        db := { r.db with statePts := some newPts }
        pending := r.pending ++ [stored] } := by
    rw [Race.step, same]
    simp only [reached]
    exact if_pos ⟨distinct, within⟩
  have stores : Race.step toTl ctx
      { r with
        db := { r.db with statePts := some newPts }
        pending := r.pending ++ [stored] } (.storeRows r.pending.length) = some
      { r with db := { r.db with statePts := some newPts, updates := r.db.updates ++ stored } } := by
    have last : (r.pending ++ [stored])[r.pending.length]? = some stored :=
      List.getElem?_concat_length
    have others : (r.pending ++ [stored]).eraseIdx r.pending.length = r.pending := by
      rw [List.eraseIdx_append_of_length_le (le_refl _), Nat.sub_self, List.eraseIdx_cons_zero,
        List.append_nil]
    rw [Race.step]
    simp only [last, others]
  exact ⟨_, runFrom_cons_some.mpr ⟨_, raised, runFrom_cons_some.mpr ⟨_, stores, rfl⟩⟩,
    rfl, rfl, rfl, rfl⟩

/-- What happens to the user is what a writer of the race does: it raises `State.pts` for its rows,
which have pts of their own, and stores them. -/
def WritesFor {υ : Type} (toTl : Update → Option υ) (ctx : RequestContext) (server after : Server)
    (userId : Nat) (pts : Int) (r : Race υ) (date : Row → Int) : Prop :=
  ∃ newPts rows t, after.statePts userId = some newPts ∧
    after.rowsOf userId = server.rowsOf userId ++ rows ∧
    runFrom (Race.step toTl ctx) r
      [.addPts (newPts - pts) (rows.map fun row => row.stored (date row)),
        .storeRows r.pending.length] = some t ∧
    t.db.statePts = some newPts ∧
    t.db.updates = r.db.updates ++ (rows.map fun row => row.stored (date row)) ∧
    t.pending = r.pending ∧ t.reader = r.reader

/-- Every operation is a writer of the race to each of its users, whatever else is under way. -/
theorem operation_is_writer {υ : Type} (toTl : Update → Option υ) (ctx : RequestContext)
    (known : server.statePts userId = some pts) (happens : server.step op = some after)
    (new : op.StoresNew userId) (r : Race υ) (same : r.db.statePts = some pts) (date : Row → Int) :
    WritesFor toTl ctx server after userId pts r date := by
  obtain ⟨newPts, rows, raises, raised, created, reserved⟩ := step_reserves known happens new
  obtain ⟨t, run, effects⟩ := reserved.race toTl ctx raises same date
  exact ⟨newPts, rows, t, raised, created, run, effects⟩

/-- What is stored in a run keeps to `State.pts`, as long as every delete is of something. -/
theorem run_reserves {low : Int} {ops : List Operation} (known : server.statePts userId = some pts)
    (above : low ≤ pts) (reserved : Reserved low pts (server.rowsOf userId))
    (new : ∀ op ∈ ops, op.StoresNew userId)
    (run : runFrom Server.step server ops = some after) :
    ∃ newPts, after.statePts userId = some newPts ∧
      Reserved low newPts (after.rowsOf userId) := by
  induction ops generalizing server pts with
  | nil =>
    cases run
    exact ⟨pts, known, reserved⟩
  | cons op ops ih =>
    obtain ⟨next, happens, rest⟩ := runFrom_cons_some.mp run
    obtain ⟨here, later⟩ := List.forall_mem_cons.mp new
    obtain ⟨newPts, rows, raises, raised, created, fresh⟩ := step_reserves known happens here
    refine ih raised (above.trans raises) ?_ later rest
    rw [created]
    exact reserved.append fresh above raises

/-- The database that a run of operations leaves is one that `get_difference` can rely on. -/
theorem run_stored {statePts : Counters} {ops : List Operation}
    (known : statePts userId = some pts) (new : ∀ op ∈ ops, op.StoresNew userId)
    (run : runFrom Server.step (.start statePts) ops = some after) (date : Row → Int)
    (db : UserUpdates) (updates : db.updates = (after.rowsOf userId).map fun row => row.stored (date row))
    (counter : db.statePts = after.statePts userId) : db.Stored := by
  have known : (Server.start statePts).statePts userId = some pts := known
  obtain ⟨newPts, raised, reserved⟩ := run_reserves known (le_refl pts) .nothing new run
  obtain ⟨distinct, within⟩ := reserved.stored date
  refine ⟨?_, ?_⟩
  · rw [updates]
    exact distinct
  · intro update listed
    rw [updates] at listed
    rw [counter, raised]
    exact (within update listed).2

end Step

private def databaseAfter (server : Server) : UserUpdates where
  updates := (server.rowsOf 1).map fun row => row.stored 0
  statePts := server.statePts 1
  secretUpdates := []
  updSeq := 0
  updQts := 0
  channelStates := fun _ => []

/-- A user reads the dialog while rows of another writer wait to be stored. -/
theorem operation_is_writer_read : ∃ after,
    (Server.start allAtTen).step (.updateReadHistoryInbox ⟨1, 1⟩ 5 0 true) = some after ∧
      WritesFor (fun _ => (none : Option Unit)) ⟨1, 200⟩ (.start allAtTen) after 1 10
        ⟨databaseAfter (.start allAtTen), [[Poll.rowAt 10 1]], .idle⟩ fun _ => 0 := by
  have happens : ∃ after,
      (Server.start allAtTen).step (.updateReadHistoryInbox ⟨1, 1⟩ 5 0 true) = some after :=
    ⟨_, rfl⟩
  obtain ⟨after, happens⟩ := happens
  have new : Operation.StoresNew 1 (.updateReadHistoryInbox ⟨1, 1⟩ 5 0 true) := trivial
  exact ⟨after, happens, operation_is_writer _ _ rfl happens new _ rfl _⟩

theorem run_stored_sendReadDelete : ∃ server,
    runFrom Server.step (.start allAtTen) (sendReadDelete (some 7)) = some server ∧
      (databaseAfter server).Stored := by
  have new : ∀ op ∈ sendReadDelete (some 7), op.StoresNew 1 := by
    simp only [sendReadDelete, List.forall_mem_cons, Operation.StoresNew]
    exact ⟨trivial, trivial, by decide, List.forall_mem_nil _⟩
  have run : ∃ server, runFrom Server.step (.start allAtTen) (sendReadDelete (some 7)) = some server :=
    ⟨_, rfl⟩
  obtain ⟨server, run⟩ := run
  exact ⟨server, run, run_stored rfl new run (fun _ => 0) (databaseAfter server) rfl rfl⟩

end Piltover.Updates.Manager
