/- source: piltover/app/handlers/messages/dialogs.py, piltover/db/models/peer.py,
     piltover/db/models/dialog.py
   digest: The dialog list page by page, and when the pages together are the list. -/

import Piltover.Dialogs.Pinning
import Piltover.Foundation.Walks

set_option autoImplicit false

namespace Piltover.Dialogs.Listing

open Piltover.Foundation
open Piltover.Foundation.Walks

/-- `last_message_id` and `last_message_date`, which are written together; the date is in
microseconds, and `service` is whether there is a service message of that id. -/
structure LastMessage where
  id : Nat
  date : Nat
  service : Bool
  deriving DecidableEq, Repr

structure Peer where
  id : Nat
  ownerId : Option Nat
  target : PeerTarget
  lastMessage : Option LastMessage
  deriving DecidableEq, Repr

def ownerFor (userId : Nat) : PeerTarget → Option Nat
  | .channel _ => none
  | _ => some userId

def Peer.key (p : Peer) : Option Nat × PeerTarget := (p.ownerId, p.target)

/-- A row of `Dialog` with its row of `Peer`. -/
structure DialogRow extends Dialog where
  id : Nat
  peerRow : Peer
  deriving DecidableEq, Repr

structure Db where
  peers : Table Peer.key
  dialogs : Table DialogRow.id
  loaded : ∀ d ∈ dialogs, peers.get (ownerFor d.ownerId d.peer, d.peer) = some d.peerRow
  notSelf : ∀ d ∈ dialogs, d.peer ≠ .user d.ownerId

structure GetDialogs where
  offsetId : Nat
  offsetDate : Nat
  offsetPeer : InputPeer
  limit : Int
  folderId : Option Int
  excludePinned : Bool
  deriving DecidableEq, Repr

/-- What the offsets of a request add to the query. -/
structure Offsets where
  beforeId : Option Nat
  beforePeer : Option Nat
  beforeDate : Option Nat
  deriving DecidableEq, Repr

def Offsets.admits (offsets : Offsets) (d : DialogRow) : Bool :=
  offsets.beforeId.all (fun id => d.peerRow.lastMessage.any fun m => m.id < id) &&
    offsets.beforePeer.all (fun id => d.peerRow.id < id) &&
    offsets.beforeDate.all fun date => d.peerRow.lastMessage.any fun m => m.date < date

structure Answer where
  dialogs : List DialogRow
  count : Option Nat
  deriving DecidableEq, Repr

/-- The top message is none that formatting raises for. -/
def DialogRow.formats (d : DialogRow) : Bool := !d.peerRow.lastMessage.any LastMessage.service

def Answer.total (answer : Answer) : Nat := answer.count.getD answer.dialogs.length

def rank (d : DialogRow) : Nat :=
  match d.peerRow.lastMessage with
  | none => 0
  | some m => m.id + 1

/-- `order_by("-peer__last_message_id", "-id")`, with null last. -/
def Order (d e : DialogRow) : Prop := rank e < rank d ∨ rank e = rank d ∧ e.id ≤ d.id

instance : DecidableRel Order := fun _ _ => inferInstanceAs (Decidable (_ ∨ _))

def effectiveLimit (limit : Int) : Nat := if limit > 100 ∨ limit < 1 then 100 else limit.toNat

def counted (userId : Nat) (folder : Option DialogFolderId) (d : DialogRow) : Bool :=
  d.ownerId = userId && folder.all fun folder => d.folderId = folder

def matching (userId : Nat) (folder : Option DialogFolderId) (excludePinned : Bool)
    (d : DialogRow) : Bool :=
  counted userId folder d && (!excludePinned || d.pinnedIndex.isNone) && d.visible

/-- `DialogFolderId(folder_id)`, when there is a folder. -/
def folderOf (folderId : Option Int) : Except Failure (Option DialogFolderId) :=
  match folderId with
  | none => .ok none
  | some id => (orRaise (DialogFolderId.ofValue id) .other).map some

namespace Db

variable (db : Db) (userId : Nat)

def offsets (request : GetDialogs) : Offsets :=
  let peer := (typeAndIdFromInput userId request.offsetPeer).toOption.join.bind fun target =>
    db.peers.get (ownerFor userId target, target)
  let offsetId := match peer.bind Peer.lastMessage with
    | none => 0
    | some m => if request.offsetId = 0 ∨ m.id < request.offsetId then m.id else request.offsetId
  { beforeId := if offsetId = 0 then none else some offsetId
    beforePeer := (peer.filter fun p => p.lastMessage.isNone).map Peer.id
    beforeDate := if request.offsetDate = 0 then none else some (request.offsetDate * 1000000) }

def getDialogs (request : GetDialogs) : Except Failure Answer := do
  let folder ← folderOf request.folderId
  let rows := db.dialogs.rows.filter fun d =>
    (db.offsets userId request).admits d && matching userId folder request.excludePinned d
  let dialogs := (rows.insertionSort Order).take (effectiveLimit request.limit)
  require (dialogs.all DialogRow.formats) .other
  let count := (db.dialogs.rows.filter (counted userId folder)).length
  .ok ⟨dialogs, if dialogs.length < count then some count else none⟩

end Db

def toInput : PeerTarget → InputPeer
  | .self => .self
  | .user id => .user id true
  | .chat id => .chat (id * 2)
  | .channel id => .channel (id * 2 + 1) true

def requestAfter (limit : Int) (folderId : Option Int) (excludePinned : Bool) :
    Option DialogRow → GetDialogs
  | none => ⟨0, 0, .empty, limit, folderId, excludePinned⟩
  | some d => ⟨(d.peerRow.lastMessage.map LastMessage.id).getD 0,
      (d.peerRow.lastMessage.map fun m => m.date / 1000000).getD 0, toInput d.peer, limit, folderId,
      excludePinned⟩

/-- All answers up to the first empty one, when the fuel is enough and no request fails. -/
def answers (db : Db) (userId : Nat) (limit : Int) (folderId : Option Int) (excludePinned : Bool) :
    Nat → Option DialogRow → Option (List Answer)
  | 0, _ => none
  | fuel + 1, last =>
    match db.getDialogs userId (requestAfter limit folderId excludePinned last) with
    | .error _ => none
    | .ok answer =>
      if answer.dialogs.isEmpty then some [answer]
      else (answers db userId limit folderId excludePinned fuel answer.dialogs.getLast?).map
        (answer :: ·)

/-- Every matching dialog is returned once, in the order of the last messages, and counted. -/
def PagesRight (db : Db) (userId : Nat) (limit : Int) (folderId : Option Int)
    (excludePinned : Bool) : Prop :=
  ∃ fuel read folder, answers db userId limit folderId excludePinned fuel none = some read ∧
    folderOf folderId = .ok folder ∧
    (read.flatMap Answer.dialogs).Perm
      (db.dialogs.rows.filter (matching userId folder excludePinned)) ∧
    ((read.flatMap Answer.dialogs).Pairwise fun d e => rank e ≤ rank d) ∧
    ∀ answer ∈ read, answer.total =
      (db.dialogs.rows.filter (matching userId folder excludePinned)).length

/-- What a dialog that ends a page selects: without a message the peers with smaller ids, else the
messages that are both older by their ids and from an earlier second. -/
def selects (last d : DialogRow) : Bool :=
  match last.peerRow.lastMessage with
  | none => d.peerRow.id < last.peerRow.id
  | some m => (m.id = 0 || d.peerRow.lastMessage.any fun n => n.id < m.id) &&
      (m.date / 1000000 = 0 ||
        d.peerRow.lastMessage.any fun n => n.date < m.date / 1000000 * 1000000)

section Offsets

variable {db : Db} {userId : Nat} {limit : Int} {folderId : Option Int} {excludePinned : Bool}

theorem resolve_toInput {target : PeerTarget} (notSelf : target ≠ .user userId) :
    typeAndIdFromInput userId (toInput target) = .ok (some target) := by
  cases target with
  | self => rfl
  | user id =>
    have other : id ≠ userId := fun same => notSelf (congrArg PeerTarget.user same)
    simp [typeAndIdFromInput, toInput, other]
  | chat id => simp [typeAndIdFromInput, toInput, normId]
  | channel id =>
    have half : (id * 2 + 1) / 2 = id := by omega
    simp [typeAndIdFromInput, toInput, normId, half]

theorem admits_first (e : DialogRow) :
    (db.offsets userId (requestAfter limit folderId excludePinned none)).admits e = true := rfl

theorem admits_after {d : DialogRow} (here : d ∈ db.dialogs) (own : d.ownerId = userId)
    (e : DialogRow) :
    (db.offsets userId (requestAfter limit folderId excludePinned (some d))).admits e =
      selects d e := by
  subst own
  have named : typeAndIdFromInput d.ownerId (toInput d.peer) = .ok (some d.peer) :=
    resolve_toInput (db.notSelf d here)
  have found := db.loaded d here
  have peer : (typeAndIdFromInput d.ownerId (toInput d.peer)).toOption.join.bind (fun target =>
      db.peers.get (ownerFor d.ownerId target, target)) = some d.peerRow := by
    rw [named]
    exact found
  cases last : d.peerRow.lastMessage with
  | none =>
    have isNone : d.peerRow.lastMessage.isNone = true := by rw [last]; rfl
    simp only [Db.offsets, requestAfter, peer, last, selects, Offsets.admits, Option.bind_some,
      Option.map_none, Option.getD_none, Option.filter_some, Option.isNone_none, if_true,
      Option.map_some, Option.all_none, Option.all_some, Bool.true_and, Bool.and_true]
  | some m =>
    simp only [Db.offsets, requestAfter, peer, last, selects, Offsets.admits, Option.bind_some,
      Option.map_some, Option.getD_some, Option.filter_some, Option.isNone_some,
      Bool.false_eq_true, if_false, Option.map_none, Option.all_none, Bool.and_true]
    have sameId : (if m.id = 0 ∨ m.id < m.id then m.id else m.id) = m.id := ite_self _
    rw [sameId]
    congr 1
    · by_cases noId : m.id = 0
      · rw [if_pos noId, decide_eq_true noId, Bool.true_or, Option.all_none]
      · rw [if_neg noId, decide_eq_false noId, Bool.false_or, Option.all_some]
    · by_cases noDate : m.date / 1000000 = 0
      · rw [if_pos noDate, decide_eq_true noDate, Bool.true_or, Option.all_none]
      · rw [if_neg noDate, decide_eq_false noDate, Bool.false_or, Option.all_some]

end Offsets

section Sorting

theorem order_total : Std.Total Order := by
  refine ⟨fun d e => ?_⟩
  unfold Order
  omega

theorem order_trans : IsTrans DialogRow Order := by
  refine ⟨fun a b c ab bc => ?_⟩
  unfold Order at *
  omega

def listed (db : Db) (userId : Nat) (folder : Option DialogFolderId) (excludePinned : Bool) :
    List DialogRow :=
  (db.dialogs.rows.filter (matching userId folder excludePinned)).insertionSort Order

variable {db : Db} {userId : Nat} {folder : Option DialogFolderId} {excludePinned : Bool}

theorem mem_listed {d : DialogRow} :
    d ∈ listed db userId folder excludePinned ↔
      d ∈ db.dialogs ∧ matching userId folder excludePinned d = true := by
  rw [listed, List.mem_insertionSort, List.mem_filter]
  rfl

theorem owner_of_listed {d : DialogRow} (here : d ∈ listed db userId folder excludePinned) :
    d.ownerId = userId := by
  have passes := (mem_listed.mp here).2
  rw [matching, counted, Bool.and_eq_true, Bool.and_eq_true, Bool.and_eq_true,
    decide_eq_true_eq] at passes
  exact passes.1.1.1

theorem listed_perm : (listed db userId folder excludePinned).Perm
    (db.dialogs.rows.filter (matching userId folder excludePinned)) :=
  List.perm_insertionSort _ _

theorem nodup_listed : (listed db userId folder excludePinned).Nodup :=
  listed_perm.nodup_iff.mpr ((List.Nodup.of_map _ db.dialogs.unique).filter _)

theorem ordered_listed : (listed db userId folder excludePinned).Pairwise Order :=
  have := order_total
  have := order_trans
  List.pairwise_insertionSort _ _

theorem sort_filter (check : DialogRow → Bool) :
    (db.dialogs.rows.filter fun d =>
      check d && matching userId folder excludePinned d).insertionSort Order = (listed db userId folder excludePinned).filter check := by
  have := order_total
  have := order_trans
  refine List.Perm.eq_of_pairwise ?_ (List.pairwise_insertionSort _ _)
    (ordered_listed.filter check) ?_
  · intro d e here there de ed
    rw [List.mem_insertionSort, List.mem_filter] at here
    have inRows := (mem_listed.mp (List.mem_of_mem_filter there)).1
    refine Table.eq_of_key_eq here.1 inRows ?_
    unfold Order at de ed
    omega
  · refine (List.perm_insertionSort _ _).trans ?_
    rw [← List.filter_filter]
    exact (listed_perm.filter check).symm

end Sorting

section Answers

variable {db : Db} {userId : Nat} {limit : Int} {folderId : Option Int} {excludePinned : Bool}
  {folder : Option DialogFolderId}

theorem limit_pos (limit : Int) : 0 < effectiveLimit limit := by
  unfold effectiveLimit
  split
  · decide
  · omega

def answerOf (db : Db) (userId : Nat) (folder : Option DialogFolderId) (dialogs : List DialogRow) :
    Answer :=
  ⟨dialogs, if dialogs.length < (db.dialogs.rows.filter (counted userId folder)).length then
    some (db.dialogs.rows.filter (counted userId folder)).length else none⟩

theorem mem_of_mem_page {l : List DialogRow} {n : Nat} {last : Option DialogRow} {d : DialogRow}
    (inPage : d ∈ page l selects n last) : d ∈ l := by
  cases last with
  | none => exact List.mem_of_mem_take inPage
  | some e => exact List.mem_of_mem_filter (List.mem_of_mem_take inPage)

theorem getDialogs_after (known : folderOf folderId = .ok folder)
    (formats : ∀ d ∈ listed db userId folder excludePinned, d.formats = true)
    {last : Option DialogRow}
    (there : ∀ d ∈ last, d ∈ listed db userId folder excludePinned) :
    db.getDialogs userId (requestAfter limit folderId excludePinned last) =
      .ok (answerOf db userId folder (page (listed db userId folder excludePinned) selects
        (effectiveLimit limit) last)) := by
  have folderIs : ∀ last, (requestAfter limit folderId excludePinned last).folderId = folderId ∧
      (requestAfter limit folderId excludePinned last).limit = limit ∧
      (requestAfter limit folderId excludePinned last).excludePinned = excludePinned := by
    intro last
    cases last <;> exact ⟨rfl, rfl, rfl⟩
  obtain ⟨isFolder, isLimit, excludes⟩ := folderIs last
  have paged : ((db.dialogs.rows.filter fun d =>
      (db.offsets userId (requestAfter limit folderId excludePinned last)).admits d &&
        matching userId folder excludePinned d).insertionSort Order).take (effectiveLimit limit) =
          page (listed db userId folder excludePinned) selects (effectiveLimit limit) last := by
    rw [sort_filter]
    cases last with
    | none =>
      have all : (listed db userId folder excludePinned).filter
          (db.offsets userId (requestAfter limit folderId excludePinned none)).admits =
          listed db userId folder excludePinned :=
        List.filter_eq_self.mpr fun d _ => admits_first d
      rw [all]
      rfl
    | some d =>
      have here := there d rfl
      rw [page, List.filter_congr fun e _ =>
        admits_after (mem_listed.mp here).1 (owner_of_listed here) e]
  have fine : (page (listed db userId folder excludePinned) selects (effectiveLimit limit)
      last).all DialogRow.formats = true :=
    List.all_eq_true.mpr fun d inPage => formats d (mem_of_mem_page inPage)
  rw [Db.getDialogs, isFolder, isLimit, excludes, known]
  dsimp only [bind, Except.bind]
  rw [paged, fine]
  rfl

theorem answers_eq (known : folderOf folderId = .ok folder)
    (formats : ∀ d ∈ listed db userId folder excludePinned, d.formats = true)
    {fuel : Nat} {last : Option DialogRow}
    (there : ∀ d ∈ last, d ∈ listed db userId folder excludePinned) :
    answers db userId limit folderId excludePinned fuel last =
      (walk (listed db userId folder excludePinned) selects (effectiveLimit limit) fuel last).map
        fun pages => (pages ++ [[]]).map (answerOf db userId folder) := by
  induction fuel generalizing last with
  | zero => rfl
  | succ fuel ih =>
    rw [answers, getDialogs_after known formats there]
    dsimp only
    cases ends : (page (listed db userId folder excludePinned) selects (effectiveLimit limit)
        last).getLast? with
    | none =>
      have empty := List.getLast?_eq_none_iff.mp ends
      rw [walk_of_empty empty, empty]
      rfl
    | some d =>
      have inPage := List.mem_of_getLast? ends
      have here : d ∈ listed db userId folder excludePinned := mem_of_mem_page inPage
      have nonempty : (answerOf db userId folder (page (listed db userId folder excludePinned)
          selects (effectiveLimit limit) last)).dialogs.isEmpty = false := by
        rw [List.isEmpty_eq_false_iff]
        exact List.ne_nil_of_mem inPage
      have next : (answerOf db userId folder (page (listed db userId folder excludePinned)
          selects (effectiveLimit limit) last)).dialogs.getLast? = some d := ends
      rw [walk_of_page ends, nonempty, if_neg Bool.false_ne_true, next,
        ih fun e named => by cases named; exact here, Option.map_map, Option.map_map]
      rfl

theorem formats_of_getDialogs {request : GetDialogs} {answer : Answer}
    (answered : db.getDialogs userId request = .ok answer) :
    ∀ d ∈ answer.dialogs, d.formats = true := by
  obtain ⟨folder, -, rest⟩ := (bind_eq_ok _).mp answered
  obtain ⟨fine, same⟩ := check_bind_eq_ok.mp rest
  cases same
  exact List.all_eq_true.mp (require_eq_ok.mp fine)

/-- A page with a dialog whose top message is a service message ends the reading. -/
theorem formats_of_answers {fuel : Nat} {last : Option DialogRow} {read : List Answer}
    (reads : answers db userId limit folderId excludePinned fuel last = some read) :
    ∀ answer ∈ read, ∀ d ∈ answer.dialogs, d.formats = true := by
  induction fuel generalizing last read with
  | zero => cases reads
  | succ fuel ih =>
    rw [answers] at reads
    split at reads
    · cases reads
    · rename_i answer answered
      have here := formats_of_getDialogs answered
      split at reads
      · cases reads
        exact List.forall_mem_singleton.mpr here
      · obtain ⟨later, rest, rfl⟩ := Option.map_eq_some_iff.mp reads
        exact List.forall_mem_cons.mpr ⟨here, ih rest⟩

/-- What the requests need: all dialogs of the user in the folder are on the list, none of them has
a service message as its last one, and the last dialog of every page selects what follows it. -/
structure Pageable (db : Db) (userId : Nat) (limit : Int) (folder : Option DialogFolderId)
    (excludePinned : Bool) : Prop where
  complete : ∀ d ∈ db.dialogs, counted userId folder d = true →
    matching userId folder excludePinned d = true
  formats : ∀ d ∈ listed db userId folder excludePinned, d.formats = true
  cuts : Cuts (listed db userId folder excludePinned) selects (effectiveLimit limit)

/-- Messages have ids from 1 on, and were not sent in the first second of 1970. -/
def Genuine (db : Db) : Prop :=
  ∀ d ∈ db.dialogs, ∀ m ∈ d.peerRow.lastMessage, 0 < m.id ∧ 1000000 ≤ m.date

theorem counted_of_matching {d : DialogRow}
    (passes : matching userId folder excludePinned d = true) :
    counted userId folder d = true := by
  rw [matching, Bool.and_eq_true, Bool.and_eq_true] at passes
  exact passes.1.1

theorem count_eq_iff :
    (db.dialogs.rows.filter (counted userId folder)).length =
        (db.dialogs.rows.filter (matching userId folder excludePinned)).length ↔
      ∀ d ∈ db.dialogs, counted userId folder d = true →
        matching userId folder excludePinned d = true := by
  have inner : db.dialogs.rows.filter (matching userId folder excludePinned) =
      (db.dialogs.rows.filter (counted userId folder)).filter
        (matching userId folder excludePinned) := by
    rw [List.filter_filter]
    refine List.filter_congr fun d _ => ?_
    rw [Bool.eq_iff_iff, Bool.and_eq_true]
    exact ⟨fun passes => ⟨passes, counted_of_matching passes⟩, fun both => both.1⟩
  rw [inner, eq_comm, List.length_filter_eq_length_iff]
  exact ⟨fun all d here passes => all d (List.mem_filter.mpr ⟨here, passes⟩),
    fun all d here => all d (List.mem_of_mem_filter here) (List.mem_filter.mp here).2⟩

theorem flatMap_answers (pages : List (List DialogRow)) :
    ((pages ++ [[]]).map (answerOf db userId folder)).flatMap Answer.dialogs = pages.flatten := by
  rw [List.flatMap_map, List.flatMap_append]
  show pages.flatMap (fun page => page) ++ [] = _
  rw [List.append_nil, List.flatMap_id']

theorem rank_le_of_order {d e : DialogRow} (before : Order d e) : rank e ≤ rank d := by
  unfold Order at before
  omega

theorem pagesRight_of_pageable (known : folderOf folderId = .ok folder)
    (pageable : Pageable db userId limit folder excludePinned) :
    PagesRight db userId limit folderId excludePinned := by
  obtain ⟨fuel, pages, reads, all⟩ := reads_of_cuts (limit_pos limit) pageable.cuts
  refine ⟨fuel, (pages ++ [[]]).map (answerOf db userId folder), folder, ?_, known, ?_, ?_, ?_⟩
  · rw [answers_eq known pageable.formats fun d named => (by cases named), reads, Option.map_some]
  · rw [flatMap_answers, all]
    exact listed_perm
  · rw [flatMap_answers, all]
    exact ordered_listed.imp rank_le_of_order
  · intro answer listed
    obtain ⟨page, inPages, rfl⟩ := List.mem_map.mp listed
    have same := count_eq_iff.mpr pageable.complete
    have short : page.length ≤
        (db.dialogs.rows.filter (matching userId folder excludePinned)).length := by
      rw [← listed_perm.length_eq, ← all]
      rcases List.mem_append.mp inPages with here | last
      · exact (List.sublist_flatten_of_mem here).length_le
      · rw [List.mem_singleton.mp last]
        exact Nat.zero_le _
    rw [Answer.total, answerOf, same]
    split
    · rfl
    · next full => exact Nat.le_antisymm short (not_lt.mp full)

theorem selects_none {r s : DialogRow} (ofR : r.peerRow.lastMessage = none) :
    selects r s = true ↔ s.peerRow.id < r.peerRow.id := by
  rw [selects, ofR]
  exact decide_eq_true_iff

theorem selects_some {r s : DialogRow} {m n : LastMessage} (ofR : r.peerRow.lastMessage = some m)
    (ofS : s.peerRow.lastMessage = some n) :
    selects r s = true ↔ (m.id = 0 ∨ n.id < m.id) ∧
      (m.date / 1000000 = 0 ∨ n.date < m.date / 1000000 * 1000000) := by
  rw [selects, ofR, ofS]
  dsimp only
  rw [Option.any_some, Option.any_some, Bool.and_eq_true, Bool.or_eq_true, Bool.or_eq_true,
    decide_eq_true_eq, decide_eq_true_eq, decide_eq_true_eq, decide_eq_true_eq]

theorem selects_absent {r s : DialogRow} {m : LastMessage} (ofR : r.peerRow.lastMessage = some m)
    (ofS : s.peerRow.lastMessage = none) :
    selects r s = true ↔ m.id = 0 ∧ m.date / 1000000 = 0 := by
  rw [selects, ofR, ofS]
  dsimp only
  rw [Option.any_none, Option.any_none, Bool.or_false, Bool.or_false, Bool.and_eq_true,
    decide_eq_true_eq, decide_eq_true_eq]

theorem absent_of_rank_le {r s : DialogRow} (lower : rank s ≤ rank r)
    (ofR : r.peerRow.lastMessage = none) : s.peerRow.lastMessage = none := by
  cases ofS : s.peerRow.lastMessage with
  | none => rfl
  | some m =>
    rw [rank, rank, ofR, ofS] at lower
    exact absurd lower (Nat.not_succ_le_zero _)

theorem nested_of_genuine (genuine : Genuine db) :
    Nested (listed db userId folder excludePinned) selects rank := by
  intro r _ s here t _ lower lowest first second
  cases ofR : r.peerRow.lastMessage with
  | none =>
    rw [selects_none ofR] at first ⊢
    rw [selects_none (absent_of_rank_le lower ofR)] at second
    exact second.trans first
  | some m =>
    cases ofS : s.peerRow.lastMessage with
    | none =>
      rw [selects_absent ofR ofS] at first
      rw [selects_absent ofR (absent_of_rank_le lowest ofS)]
      exact first
    | some n =>
      obtain ⟨positive, late⟩ := genuine s (mem_listed.mp here).1 n ofS
      have hasId : ¬ n.id = 0 := Nat.pos_iff_ne_zero.mp positive
      have isDated : ¬ n.date / 1000000 = 0 :=
        Nat.pos_iff_ne_zero.mp (Nat.div_pos late (Nat.succ_pos _))
      cases ofT : t.peerRow.lastMessage with
      | none =>
        rw [selects_absent ofS ofT] at second
        exact absurd second.1 hasId
      | some o =>
        rw [selects_some ofR ofS] at first
        rw [selects_some ofS ofT] at second
        rw [selects_some ofR ofT]
        have older := second.1.resolve_left hasId
        have earlier := Nat.lt_of_lt_of_le (second.2.resolve_left isDated)
          (Nat.div_mul_le_self _ _)
        exact ⟨first.1.imp_right older.trans, first.2.imp_right earlier.trans⟩

theorem pageable_of_pagesRight (genuine : Genuine db)
    (right : PagesRight db userId limit folderId excludePinned) :
    ∃ folder, folderOf folderId = .ok folder ∧ Pageable db userId limit folder excludePinned := by
  obtain ⟨fuel, read, folder, reads, known, same, ordered, counts⟩ := right
  have formats : ∀ d ∈ listed db userId folder excludePinned, d.formats = true := by
    intro d here
    obtain ⟨answer, answered, inAnswer⟩ :=
      List.mem_flatMap.mp (same.mem_iff.mpr (listed_perm.mem_iff.mp here))
    exact formats_of_answers reads answer answered d inAnswer
  rw [answers_eq known formats fun d named => (by cases named), Option.map_eq_some_iff] at reads
  obtain ⟨pages, walks, rfl⟩ := reads
  refine ⟨folder, known, ?_, formats, ?_⟩
  · have last := counts (answerOf db userId folder [])
      (List.mem_map.mpr ⟨[], List.mem_append_right _ List.mem_cons_self, rfl⟩)
    rw [← count_eq_iff, ← last, Answer.total, answerOf]
    split
    · rfl
    · next none => exact Nat.eq_zero_of_not_pos none
  · rw [flatMap_answers] at same ordered
    exact cuts_of_walk (limit_pos limit) nodup_listed (nested_of_genuine genuine) walks
      (same.trans listed_perm.symm) ordered

end Answers

section Samples

private def row (id : Nat) (peer : PeerTarget) (lastMessage : LastMessage) : DialogRow :=
  ⟨⟨⟨1, peer, none⟩, .all, true⟩, id, ⟨id + 30, some 1, peer, some lastMessage⟩⟩

/-- Three dialogs with the last messages of three seconds. -/
private def spread : Db where
  peers := ⟨[⟨31, some 1, .user 2, some ⟨50, 7400000, false⟩⟩,
    ⟨32, some 1, .self, some ⟨51, 8300000, false⟩⟩,
    ⟨33, some 1, .chat 4, some ⟨54, 9200000, false⟩⟩], by decide⟩
  dialogs := ⟨[row 1 (.user 2) ⟨50, 7400000, false⟩, row 2 .self ⟨51, 8300000, false⟩,
    row 3 (.chat 4) ⟨54, 9200000, false⟩], by decide⟩
  loaded := by
    intro d here
    simp only [Table.mem_def, List.mem_cons, List.not_mem_nil, or_false] at here
    rcases here with rfl | rfl | rfl <;> decide
  notSelf := by
    intro d here
    simp only [Table.mem_def, List.mem_cons, List.not_mem_nil, or_false] at here
    rcases here with rfl | rfl | rfl <;> decide

private theorem listed_spread : listed spread 1 (some .all) true =
    [row 3 (.chat 4) ⟨54, 9200000, false⟩, row 2 .self ⟨51, 8300000, false⟩,
      row 1 (.user 2) ⟨50, 7400000, false⟩] := by
  decide +kernel

/-- Two dialogs with the last messages of one second. -/
private def close : Db where
  peers := ⟨[⟨31, some 1, .user 2, some ⟨50, 7400000, false⟩⟩,
    ⟨32, some 1, .self, some ⟨51, 7600000, false⟩⟩], by decide⟩
  dialogs := ⟨[row 1 (.user 2) ⟨50, 7400000, false⟩, row 2 .self ⟨51, 7600000, false⟩], by decide⟩
  loaded := by
    intro d here
    simp only [Table.mem_def, List.mem_cons, List.not_mem_nil, or_false] at here
    rcases here with rfl | rfl <;> decide
  notSelf := by
    intro d here
    simp only [Table.mem_def, List.mem_cons, List.not_mem_nil, or_false] at here
    rcases here with rfl | rfl <;> decide

private theorem listed_close : listed close 1 none false =
    [row 2 .self ⟨51, 7600000, false⟩, row 1 (.user 2) ⟨50, 7400000, false⟩] := by
  decide +kernel

end Samples

end Piltover.Dialogs.Listing
