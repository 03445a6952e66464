/- source: piltover/session/session.py
   digest: The requests of a session that are done, who waits for them, and what is forgotten. -/

import Mathlib.Data.Finset.Card
import Mathlib.Data.List.Nodup
import Piltover.Foundation.Interleaved
import Piltover.Foundation.OrderedDict

set_option autoImplicit false

namespace Piltover.Gateway.Completions

open Piltover.Foundation
open Piltover.Foundation.Runs
open Piltover.Foundation.Interleaved

/-- `_RPC_COMPLETION_TRACK_LIMIT`. -/
def trackLimit : Nat := 256

/-- An asyncio event. `since` is the number of completions before it was made. -/
structure Event where
  isSet : Bool
  since : Nat
  deriving DecidableEq, Repr

/-- The three structures of a session, with the events that `completions` refers to. The rest is
what has happened: all completions, those that were recorded, and what waiting has returned. -/
structure Tracker where
  completions : OrderedDict Nat Nat
  completedIds : Finset Nat
  completedOrder : List Nat
  events : List Event
  marked : List Nat
  recorded : List Nat
  answered : List (Nat × Bool)

inductive Asked
  | markRpcCompleted (msgId : Nat)
  | waitForRpc (msgId : Nat)
  deriving DecidableEq, Repr

/-- A call waits for the event, and began to when there had been `since` completions. -/
structure Waiting where
  msgId : Nat
  event : Nat
  since : Nat
  deriving DecidableEq, Repr

/-- `_prune_rpc_completions`; `none` stands for the exception of an empty deque. -/
def prune : List Nat → Finset Nat → OrderedDict Nat Nat →
    Option (List Nat × Finset Nat × OrderedDict Nat Nat)
  | [], ids, completions => if ids.card ≤ trackLimit then some ([], ids, completions) else none
  | oldest :: order, ids, completions =>
    if ids.card ≤ trackLimit then some (oldest :: order, ids, completions)
    else prune order (ids.erase oldest) (AList.erase oldest completions)

namespace Tracker

def new : Tracker := ⟨∅, ∅, [], [], [], [], []⟩

variable (s : Tracker)

/-- `event.set()`, if there is one for the request. -/
def wake (msgId : Nat) : Tracker :=
  match s.completions.lookup msgId with
  | none => s
  | some event => { s with events := s.events.modify event fun e => { e with isSet := true } }

def markRpcCompleted (msgId : Nat) : Tracker :=
  let s := { s with marked := s.marked ++ [msgId] }
  if msgId ∈ s.completedIds then s.wake msgId
  else
    match prune (s.completedOrder ++ [msgId]) (insert msgId s.completedIds) s.completions with
    | none => s
    | some (order, ids, completions) =>
      { s with
        completedOrder := order
        completedIds := ids
        completions := completions
        recorded := s.recorded ++ [msgId] }.wake msgId

def answer (msgId : Nat) (result : Bool) : Tracker × Option Waiting :=
  ({ s with answered := s.answered ++ [(msgId, result)] }, none)

/-- `wait_for_rpc` up to where it leaves the lock. -/
def waitForRpc (msgId : Nat) : Tracker × Option Waiting :=
  if msgId ∈ s.completedIds then s.answer msgId true
  else
    match s.completions.lookup msgId with
    | some event => (s, some ⟨msgId, event, s.marked.length⟩)
    | none =>
      ({ s with
        completions := OrderedDict.setItem s.completions msgId s.events.length
        events := s.events ++ [⟨false, s.marked.length⟩] },
        some ⟨msgId, s.events.length, s.marked.length⟩)

def begin : Asked → Tracker × Option Waiting
  | .markRpcCompleted msgId => (s.markRpcCompleted msgId, none)
  | .waitForRpc msgId => s.waitForRpc msgId

def isSet (event : Nat) : Bool := (s.events[event]?).any Event.isSet

/-- A call that waits has its turn: its time may be up, and it goes on waiting unless its event is
set. -/
def advance (w : Waiting) (timedOut : Bool) : Tracker × Option Waiting :=
  if timedOut then s.answer w.msgId false
  else if s.isSet w.event then s.answer w.msgId true
  else (s, some w)

end Tracker

/-- The calls of a session in any order; the lock is never held across a suspension. -/
def tracking : Machine Tracker Asked Waiting Bool Empty where
  begin := fun s asked _ => s.begin asked
  advance := Tracker.advance
  disturb := fun s _ => s

abbrev Calls := World Tracker Waiting

def fresh : Calls := ⟨Tracker.new, fun _ => none⟩

def Tracker.lastRecorded (s : Tracker) : List Nat :=
  s.recorded.drop (s.recorded.length - trackLimit)

/-- The set and the deque agree, nobody waits for what is done without having been woken, the last
completions are known at once, and an event is kept only for what is not done or still known. -/
structure Tracked (w : Calls) : Prop where
  same : ∀ msgId, msgId ∈ w.shared.completedIds ↔ msgId ∈ w.shared.completedOrder
  nodup : w.shared.completedOrder.Nodup
  few : w.shared.completedOrder.length ≤ trackLimit
  woken : ∀ call t, w.calls call = some t → t.msgId ∈ w.shared.marked.drop t.since →
    w.shared.isSet t.event = true
  known : ∀ msgId ∈ w.shared.lastRecorded,
    w.shared.begin (.waitForRpc msgId) = w.shared.answer msgId true
  kept : ∀ msgId event e, w.shared.completions.lookup msgId = some event →
    w.shared.events[event]? = some e →
      msgId ∉ w.shared.marked.drop e.since ∨ msgId ∈ w.shared.completedIds

theorem trackLimit_pos : 0 < trackLimit := by decide

section Pruning

variable {order : List Nat} {ids : Finset Nat} {completions : OrderedDict Nat Nat} {msgId : Nat}

theorem prune_of_few (few : ids.card ≤ trackLimit) :
    prune order ids completions = some (order, ids, completions) := by
  cases order <;> exact if_pos few

theorem prune_concat (completions : OrderedDict Nat Nat) (nodup : order.Nodup)
    (fresh : msgId ∉ order) (few : order.length ≤ trackLimit) :
    ∃ kept completions', kept = (order ++ [msgId]).drop (order.length + 1 - trackLimit) ∧
      prune (order ++ [msgId]) (insert msgId order.toFinset) completions =
        some (kept, kept.toFinset, completions') ∧
      (∀ j, j ∈ kept ∨ j ∉ order → completions'.lookup j = completions.lookup j) ∧
      ∀ j event, completions'.lookup j = some event →
        completions.lookup j = some event ∧ (j ∈ order → j ∈ kept) := by
  have size : (insert msgId order.toFinset).card = order.length + 1 := by
    rw [Finset.card_insert_of_notMem (by simpa using fresh), List.toFinset_card_of_nodup nodup]
  have all : insert msgId order.toFinset = (order ++ [msgId]).toFinset := by
    rw [List.toFinset_append, Finset.union_comm]
    rfl
  rcases Nat.lt_or_ge order.length trackLimit with room | full
  · have whole : order.length + 1 - trackLimit = 0 := by omega
    refine ⟨order ++ [msgId], completions, by rw [whole, List.drop_zero], ?_, fun _ _ => rfl,
      fun j event found => ⟨found, List.mem_append_left _⟩⟩
    rw [prune_of_few (by omega), all]
  · have exact_ : order.length = trackLimit := Nat.le_antisymm few full
    obtain ⟨oldest, rest, rfl⟩ := List.exists_cons_of_length_pos (trackLimit_pos.trans_le full)
    obtain ⟨absent, rest_nodup⟩ := List.nodup_cons.mp nodup
    have apart : oldest ≠ msgId := fun same => fresh (same ▸ List.mem_cons_self)
    have left : (insert msgId (oldest :: rest).toFinset).erase oldest =
        (rest ++ [msgId]).toFinset := by
      ext j
      simp only [Finset.mem_erase, Finset.mem_insert, List.mem_toFinset, List.mem_cons,
        List.mem_append]
      constructor
      · rintro ⟨other, rfl | rfl | later⟩
        · exact .inr (.inl rfl)
        · exact absurd rfl other
        · exact .inl later
      · rintro (later | rfl | none)
        · exact ⟨fun same => absent (same ▸ later), .inr (.inr later)⟩
        · exact ⟨apart.symm, .inl rfl⟩
        · cases none
    refine ⟨rest ++ [msgId], AList.erase oldest completions, ?_, ?_, fun j kept => ?_,
      fun j event found => ?_⟩
    · rw [exact_, Nat.add_sub_cancel_left, List.cons_append, List.drop_one, List.tail_cons]
    · have shorter : ((insert msgId (oldest :: rest).toFinset).erase oldest).card ≤ trackLimit := by
        rw [Finset.card_erase_of_mem (by simp), size]
        omega
      rw [List.cons_append, prune, if_neg (by omega), prune_of_few shorter, left]
    · refine AList.lookup_erase_ne fun same => ?_
      rcases kept with kept | gone
      · rcases List.mem_append.mp kept with later | last
        · exact absent (same ▸ later)
        · exact apart (same ▸ List.mem_singleton.mp last)
      · exact gone (same ▸ List.mem_cons_self)
    · obtain ⟨other, before⟩ := OrderedDict.lookup_erase_eq_some.mp found
      refine ⟨before, fun held => List.mem_append_left _ ?_⟩
      exact (List.mem_cons.mp held).resolve_left other

end Pruning

namespace Tracker

/-- The number of completions before an event was made. -/
def since (s : Tracker) (event : Nat) : Option Nat := (s.events[event]?).map Event.since

variable {s : Tracker} {msgId : Nat}

@[simp] theorem completions_wake : (s.wake msgId).completions = s.completions := by
  unfold wake; split <;> rfl

@[simp] theorem completedIds_wake : (s.wake msgId).completedIds = s.completedIds := by
  unfold wake; split <;> rfl

@[simp] theorem completedOrder_wake : (s.wake msgId).completedOrder = s.completedOrder := by
  unfold wake; split <;> rfl

@[simp] theorem marked_wake : (s.wake msgId).marked = s.marked := by
  unfold wake; split <;> rfl

@[simp] theorem recorded_wake : (s.wake msgId).recorded = s.recorded := by
  unfold wake; split <;> rfl

theorem getElem?_wake (event : Nat) : (s.wake msgId).events[event]? =
    (s.events[event]?).map fun e =>
      if s.completions.lookup msgId = some event then { e with isSet := true } else e := by
  unfold wake
  split
  · rename_i none
    simp [none]
  · rename_i found here
    simp only [List.getElem?_modify, here, Option.some.injEq]
    by_cases same : found = event <;> simp [same]

@[simp] theorem since_wake (event : Nat) : (s.wake msgId).since event = s.since event := by
  rw [since, getElem?_wake, Option.map_map, since]
  refine congrFun (congrArg _ (funext fun e => ?_)) _
  show (if _ then _ else e).since = e.since
  split <;> rfl

theorem isSet_wake_of_isSet {event : Nat} (set_ : (s.events[event]?).any Event.isSet = true) :
    (s.wake msgId).isSet event = true := by
  rw [isSet, getElem?_wake]
  cases found : s.events[event]? with
  | none => rw [found] at set_; cases set_
  | some e =>
    rw [found, Option.any_some] at set_
    rw [Option.map_some, Option.any_some]
    split
    · rfl
    · exact set_

theorem isSet_wake {event : Nat} (found : s.completions.lookup msgId = some event)
    (valid : event < s.events.length) : (s.wake msgId).isSet event = true := by
  rw [isSet, getElem?_wake, List.getElem?_eq_getElem valid, Option.map_some, Option.any_some,
    if_pos found]

@[simp] theorem length_events_wake : (s.wake msgId).events.length = s.events.length := by
  unfold wake
  split
  · rfl
  · exact List.length_modify ..

/-- What holds of the structures between turns. -/
structure Sound (s : Tracker) : Prop where
  ids : s.completedIds = s.completedOrder.toFinset
  nodup : s.completedOrder.Nodup
  last : s.completedOrder = s.lastRecorded
  valid : ∀ msgId event, s.completions.lookup msgId = some event → event < s.events.length
  before : ∀ event n, s.since event = some n → n ≤ s.marked.length
  kept : ∀ msgId event n, s.completions.lookup msgId = some event → s.since event = some n →
    msgId ∈ s.marked.drop n → msgId ∈ s.completedIds

/-- What a call that waits can rely on: it has been woken, or its event is still there. -/
structure Fits (s : Tracker) (t : Waiting) : Prop where
  valid : t.event < s.events.length
  before : t.since ≤ s.marked.length
  woken : t.msgId ∈ s.marked.drop t.since → s.isSet t.event = true
  waits : t.msgId ∉ s.marked.drop t.since →
    s.completions.lookup t.msgId = some t.event ∧ t.msgId ∉ s.completedIds

structure Marks (s s' : Tracker) (msgId : Nat) : Prop where
  marked : s'.marked = s.marked ++ [msgId]
  length : s'.events.length = s.events.length
  since : ∀ event, s'.since event = s.since event
  isSet : ∀ event, s.isSet event = true → s'.isSet event = true
  wakes : ∀ event, s.completions.lookup msgId = some event → event < s.events.length →
    s'.isSet event = true
  lookup : ∀ j event, s'.completions.lookup j = some event →
    s.completions.lookup j = some event ∧ (j ∈ s.completedIds → j ∈ s'.completedIds)
  stays : ∀ j, j ∉ s.completedIds → s'.completions.lookup j = s.completions.lookup j
  fewer : ∀ j ∈ s'.completedIds, j ∈ s.completedIds ∨ j = msgId
  done : msgId ∈ s'.completedIds
  recorded : s'.recorded =
    if msgId ∈ s.completedIds then s.recorded else s.recorded ++ [msgId]
  ids : s'.completedIds = s'.completedOrder.toFinset
  nodup : s'.completedOrder.Nodup
  last : s'.completedOrder = s'.lastRecorded

theorem length_le_of_last (last : s.completedOrder = s.lastRecorded) :
    s.completedOrder.length ≤ trackLimit := by
  rw [last, lastRecorded, List.length_drop]
  omega

theorem lastRecorded_concat (recorded : List Nat) (msgId : Nat) :
    (recorded.drop (recorded.length - trackLimit) ++ [msgId]).drop
        ((recorded.drop (recorded.length - trackLimit)).length + 1 - trackLimit) =
      (recorded ++ [msgId]).drop ((recorded ++ [msgId]).length - trackLimit) := by
  rw [List.length_drop, List.length_append, List.length_singleton]
  rcases Nat.lt_or_ge recorded.length trackLimit with room | full
  · have none : recorded.length - trackLimit = 0 := by omega
    rw [none, List.drop_zero, Nat.sub_zero]
  · have places : recorded.length - trackLimit +
        (recorded.length - (recorded.length - trackLimit) + 1 - trackLimit) =
          recorded.length + 1 - trackLimit := by omega
    rw [← List.drop_append_of_le_length (by omega), List.drop_drop, places]

theorem marks_markRpcCompleted (sound : s.Sound) (msgId : Nat) :
    Marks s (s.markRpcCompleted msgId) msgId := by
  by_cases known : msgId ∈ s.completedIds
  · have same : s.markRpcCompleted msgId =
        ({ s with marked := s.marked ++ [msgId] } : Tracker).wake msgId := if_pos known
    rw [same]
    refine ⟨marked_wake, length_events_wake, since_wake, fun _ set_ => isSet_wake_of_isSet set_,
      fun _ found valid => isSet_wake found valid, fun j event found => ?_, fun j _ => ?_,
      fun j held => ?_, ?_, ?_, ?_, ?_, ?_⟩
    · rw [completions_wake] at found
      exact ⟨found, fun held => by rw [completedIds_wake]; exact held⟩
    · rw [completions_wake]
    · rw [completedIds_wake] at held
      exact .inl held
    · rw [completedIds_wake]
      exact known
    · rw [recorded_wake, if_pos known]
    · rw [completedIds_wake, completedOrder_wake]
      exact sound.ids
    · rw [completedOrder_wake]
      exact sound.nodup
    · rw [completedOrder_wake, lastRecorded, recorded_wake]
      exact sound.last
  · have fresh : msgId ∉ s.completedOrder := by
      rw [sound.ids, List.mem_toFinset] at known
      exact known
    obtain ⟨kept, completions, drop, pruned, still, found_⟩ :=
      prune_concat s.completions sound.nodup fresh (length_le_of_last sound.last)
    have same : s.markRpcCompleted msgId = ({ s with
        marked := s.marked ++ [msgId]
        completedOrder := kept
        completedIds := kept.toFinset
        completions := completions
        recorded := s.recorded ++ [msgId] } : Tracker).wake msgId := by
      rw [← sound.ids] at pruned
      rw [markRpcCompleted]
      simp only [if_neg known, pruned]
    have newest : msgId ∈ kept := by
      rw [drop, List.drop_append_of_le_length]
      · exact List.mem_append_right _ List.mem_cons_self
      · have few := length_le_of_last sound.last
        have limit := trackLimit_pos
        omega
    have sub : ∀ j ∈ kept, j ∈ s.completedOrder ∨ j = msgId := by
      intro j held
      rw [drop] at held
      exact (List.mem_append.mp (List.mem_of_mem_drop held)).imp_right List.mem_singleton.mp
    rw [same]
    refine ⟨marked_wake, length_events_wake, since_wake, fun _ set_ => isSet_wake_of_isSet set_,
      fun event found valid => isSet_wake ?_ valid, fun j event found => ?_, fun j gone => ?_,
      fun j held => ?_, ?_, ?_, ?_, ?_, ?_⟩
    · exact (still msgId (.inl newest)).trans found
    · rw [completions_wake] at found
      refine ⟨(found_ j event found).1, fun held => ?_⟩
      rw [completedIds_wake, List.mem_toFinset]
      rw [sound.ids, List.mem_toFinset] at held
      exact (found_ j event found).2 held
    · rw [completions_wake]
      rw [sound.ids, List.mem_toFinset] at gone
      exact still j (.inr gone)
    · rw [completedIds_wake, List.mem_toFinset] at held
      rw [sound.ids, List.mem_toFinset]
      exact sub j held
    · rw [completedIds_wake, List.mem_toFinset]
      exact newest
    · rw [recorded_wake, if_neg known]
    · rw [completedIds_wake, completedOrder_wake]
    · have more : (s.completedOrder ++ [msgId]).Nodup := by
        refine List.nodup_append.mpr ⟨sound.nodup, List.nodup_singleton msgId, ?_⟩
        intro a held b last same
        exact fresh (List.mem_singleton.mp last ▸ same ▸ held)
      rw [completedOrder_wake]
      show kept.Nodup
      rw [drop]
      exact (List.drop_sublist _ _).nodup more
    · have last := sound.last
      rw [lastRecorded] at last
      rw [completedOrder_wake, lastRecorded, recorded_wake]
      show kept = (s.recorded ++ [msgId]).drop ((s.recorded ++ [msgId]).length - trackLimit)
      rw [drop, ← lastRecorded_concat, ← last]

end Tracker

open Tracker

section Keeping

variable {s s' : Tracker} {msgId : Nat}

theorem mem_drop_concat {marked : List Nat} {n : Nat} {j : Nat} (before : n ≤ marked.length) :
    j ∈ (marked ++ [msgId]).drop n ↔ j ∈ marked.drop n ∨ j = msgId := by
  rw [List.drop_append_of_le_length before, List.mem_append, List.mem_singleton]

theorem sound_of_marks (sound : s.Sound) (marks : Marks s s' msgId) : s'.Sound := by
  refine ⟨marks.ids, marks.nodup, marks.last, fun j event found => ?_, fun event n made => ?_,
    fun j event n found made completed => ?_⟩
  · rw [marks.length]
    exact sound.valid j event (marks.lookup j event found).1
  · rw [marks.since] at made
    rw [marks.marked, List.length_append]
    exact Nat.le_add_right_of_le (sound.before event n made)
  · rw [marks.since] at made
    obtain ⟨found', still⟩ := marks.lookup j event found
    rw [marks.marked, mem_drop_concat (sound.before event n made)] at completed
    rcases completed with old | rfl
    · exact still (sound.kept j event n found' made old)
    · exact marks.done

theorem fits_of_marks (marks : Marks s s' msgId) {t : Waiting} (fits : s.Fits t) : s'.Fits t := by
  have drop : t.msgId ∈ s'.marked.drop t.since ↔
      t.msgId ∈ s.marked.drop t.since ∨ t.msgId = msgId := by
    rw [marks.marked]
    exact mem_drop_concat fits.before
  refine ⟨marks.length ▸ fits.valid, ?_, fun completed => ?_, fun open_ => ?_⟩
  · rw [marks.marked, List.length_append]
    exact Nat.le_add_right_of_le fits.before
  · by_cases early : t.msgId ∈ s.marked.drop t.since
    · exact marks.isSet t.event (fits.woken early)
    · obtain rfl := (drop.mp completed).resolve_left early
      exact marks.wakes t.event (fits.waits early).1 fits.valid
  · rw [drop, not_or] at open_
    obtain ⟨there, unknown⟩ := fits.waits open_.1
    refine ⟨(marks.stays t.msgId unknown).trans there, fun held => ?_⟩
    exact (marks.fewer t.msgId held).elim unknown open_.2

theorem keeps_answer (sound : s.Sound) (result : Bool) :
    Machine.Keeps Sound Fits s (s.answer msgId result).1 (s.answer msgId result).2 :=
  ⟨⟨sound.ids, sound.nodup, sound.last, sound.valid, sound.before, sound.kept⟩,
    fun _ none => (by cases none), fun _ fits => ⟨fits.valid, fits.before, fits.woken, fits.waits⟩⟩

theorem keeps_waitForRpc (sound : s.Sound) :
    Machine.Keeps Sound Fits s (s.waitForRpc msgId).1 (s.waitForRpc msgId).2 := by
  unfold waitForRpc
  split
  · exact keeps_answer sound true
  · rename_i unknown
    split
    · rename_i event found
      refine ⟨sound, fun t next => ?_, fun _ fits => fits⟩
      cases next
      refine ⟨sound.valid _ _ found, Nat.le_refl _, fun completed => ?_, fun _ => ⟨found, unknown⟩⟩
      simp at completed
    · rename_i none
      have later : ∀ event, event ≠ s.events.length →
          (s.events ++ [(⟨false, s.marked.length⟩ : Event)])[event]? = s.events[event]? := by
        intro event apart
        rcases Nat.lt_or_gt_of_ne apart with old | far
        · exact List.getElem?_append_left old
        · have beyond : (s.events ++ [(⟨false, s.marked.length⟩ : Event)]).length ≤ event := by
            rw [List.length_append]
            exact far
          rw [List.getElem?_eq_none beyond, List.getElem?_eq_none (Nat.le_of_lt far)]
      have newest : (s.events ++ [⟨false, s.marked.length⟩])[s.events.length]? =
          some ⟨false, s.marked.length⟩ := List.getElem?_concat_length
      refine ⟨⟨sound.ids, sound.nodup, sound.last, fun j event found => ?_, fun event n made => ?_,
        fun j event n found made completed => ?_⟩, fun t next => ?_, fun t fits => ?_⟩
      · rw [List.length_append]
        rw [OrderedDict.lookup_setItem] at found
        split at found
        · cases found
          exact Nat.lt_succ_self _
        · exact Nat.lt_succ_of_lt (sound.valid j event found)
      · rw [since] at made
        by_cases own : event = s.events.length
        · subst own
          rw [newest] at made
          cases made
          exact Nat.le_refl _
        · rw [later event own] at made
          exact sound.before event n made
      · rw [OrderedDict.lookup_setItem] at found
        rw [since] at made
        split at found
        · cases found
          rw [newest] at made
          cases made
          simp at completed
        · rw [later event (Nat.ne_of_lt (sound.valid j event found))] at made
          exact sound.kept j event n found made completed
      · cases next
        refine ⟨by simp, Nat.le_refl _, fun completed => ?_, fun _ => ⟨?_, unknown⟩⟩
        · simp at completed
        · rw [OrderedDict.lookup_setItem, if_pos rfl]
      · have own : t.event ≠ s.events.length := Nat.ne_of_lt fits.valid
        refine ⟨?_, fits.before, fun completed => ?_, fun open_ => ?_⟩
        · rw [List.length_append]
          exact Nat.lt_succ_of_lt fits.valid
        · rw [isSet, later t.event own]
          exact fits.woken completed
        · obtain ⟨there, gone⟩ := fits.waits open_
          refine ⟨?_, gone⟩
          rw [OrderedDict.lookup_setItem, if_neg, there]
          rintro same
          rw [← same, there] at none
          cases none

theorem obeys : tracking.Obeys Sound Fits fun _ _ => True where
  begin := by
    intro w call asked input holds good
    cases asked with
    | markRpcCompleted msgId =>
      have marks := marks_markRpcCompleted holds.inv msgId
      exact ⟨sound_of_marks holds.inv marks, fun _ none => (by cases none),
        fun _ fits => fits_of_marks marks fits⟩
    | waitForRpc msgId => exact keeps_waitForRpc holds.inv
  advance := by
    intro w call t timedOut holds here good
    show Machine.Keeps Sound Fits w.shared (w.shared.advance t timedOut).1
      (w.shared.advance t timedOut).2
    unfold advance
    split
    · exact keeps_answer holds.inv false
    · split
      · exact keeps_answer holds.inv true
      · refine ⟨holds.inv, fun u next => ?_, fun _ fits => fits⟩
        cases next
        exact holds.fits call t here
  disturb := fun w what holds good => ⟨holds.inv, fun _ none => (by cases none), fun _ fits => fits⟩

theorem tracked_of_holds {w : Calls} (holds : Machine.Holds Sound Fits w) : Tracked w := by
  refine ⟨fun msgId => ?_, holds.inv.nodup, length_le_of_last holds.inv.last, fun call t here => ?_,
    fun msgId held => ?_, fun msgId event e found made => ?_⟩
  · rw [holds.inv.ids, List.mem_toFinset]
  · exact (holds.fits call t here).woken
  · refine if_pos ?_
    rw [holds.inv.ids, List.mem_toFinset, holds.inv.last]
    exact held
  · rw [or_iff_not_imp_left, not_not]
    exact holds.inv.kept msgId event e.since found (by rw [since, made]; rfl)

theorem sound_fresh : fresh.shared.Sound :=
  ⟨rfl, List.nodup_nil, rfl, fun _ _ found => (by cases found), fun _ _ made => (by cases made),
    fun _ _ _ found => (by cases found)⟩

/-- In every order of completions and of those who wait, the tracker does what it promises. -/
theorem completions_tracked (es : List (Interleaved.Event Asked Bool Empty)) :
    HoldsAlong tracking.step Tracked fresh es := by
  refine holdsAlong_of_keep (fun _ => tracked_of_holds)
    (fun _ _ _ holds happens => Machine.holds_step obeys holds trivial happens)
    ⟨sound_fresh, fun call t here => (by cases here)⟩

/-- One completion after the other. -/
private def completing (msgIds : List Nat) : List (Interleaved.Event Asked Bool Empty) :=
  msgIds.map fun msgId => .start 0 (.markRpcCompleted msgId) false

theorem marks_step {w : Calls} (sound : w.shared.Sound) (free : w.calls 0 = none) (msgId : Nat) :
    ∃ w', tracking.step w (.start 0 (.markRpcCompleted msgId) false) = some w' ∧
      w'.calls 0 = none ∧ w'.shared.Sound ∧ Marks w.shared w'.shared msgId := by
  have marks := marks_markRpcCompleted sound msgId
  refine ⟨w.turn 0 (w.shared.markRpcCompleted msgId, none), ?_, World.calls_turn_self,
    sound_of_marks sound marks, marks⟩
  rw [Machine.step, free]
  rfl

theorem run_completing {w : Calls} (sound : w.shared.Sound) (free : w.calls 0 = none)
    (msgIds : List Nat) (nodup : (w.shared.recorded ++ msgIds).Nodup) :
    ∃ w', runFrom tracking.step w (completing msgIds) = some w' ∧ w'.calls 0 = none ∧
      w'.shared.Sound ∧ w'.shared.recorded = w.shared.recorded ++ msgIds ∧
        w'.shared.marked = w.shared.marked ++ msgIds := by
  induction msgIds generalizing w with
  | nil => exact ⟨w, rfl, free, sound, by simp, by simp⟩
  | cons msgId msgIds ih =>
    obtain ⟨m, happens, free', sound', marks⟩ := marks_step sound free msgId
    have unknown : msgId ∉ w.shared.completedIds := by
      rw [sound.ids, List.mem_toFinset, sound.last]
      intro held
      exact (List.nodup_append.mp nodup).2.2 msgId (List.mem_of_mem_drop held) msgId
        List.mem_cons_self rfl
    have recorded := marks.recorded
    rw [if_neg unknown] at recorded
    rw [List.append_cons, ← recorded] at nodup
    obtain ⟨w', run, free'', sound'', recorded', marked'⟩ := ih sound' free' nodup
    refine ⟨w', runFrom_cons_some.mpr ⟨m, happens, run⟩, free'', sound'', ?_, ?_⟩
    · rw [recorded', recorded, List.append_assoc, List.singleton_append]
    · rw [marked', marks.marked, List.append_assoc, List.singleton_append]

theorem unknown_of_recorded (sound : s.Sound) (gone : msgId ∉ s.lastRecorded) :
    msgId ∉ s.completedIds := by
  rw [sound.ids, List.mem_toFinset, sound.last]
  exact gone

theorem waitForRpc_unknown (unknown : msgId ∉ s.completedIds) :
    (s.waitForRpc msgId).2.isSome = true ∧
      ((s.waitForRpc msgId).1.completions.lookup msgId).isSome = true ∧
      (s.waitForRpc msgId).1.completedIds = s.completedIds ∧
      (s.waitForRpc msgId).1.marked = s.marked := by
  rw [waitForRpc, if_neg unknown]
  split
  · rename_i event found
    exact ⟨rfl, by rw [found]; rfl, rfl, rfl⟩
  · refine ⟨rfl, ?_, rfl, rfl⟩
    rw [OrderedDict.lookup_setItem, if_pos rfl]
    rfl

theorem run_completing_range (n : Nat) :
    ∃ w, runFrom tracking.step fresh (completing (List.range n)) = some w ∧ w.calls 0 = none ∧
      w.shared.Sound ∧ w.shared.recorded = List.range n ∧ w.shared.marked = List.range n :=
  run_completing sound_fresh rfl (List.range n) List.nodup_range

/-- A request that was done long ago and is waited for leaves an event behind; and one that is done
again while it is known, second to last of all, is forgotten as if it had been done only once. -/
theorem done_and_forgotten :
    (∃ w, runFrom tracking.step fresh
        (completing (List.range 257) ++ [.start 0 (.waitForRpc 0) false]) = some w ∧
      (w.shared.completions.lookup 0).isSome = true ∧ 0 ∈ w.shared.marked ∧
        0 ∉ w.shared.completedIds) ∧
    ∃ w, runFrom tracking.step fresh
        (completing (List.range 256) ++ [.start 0 (.markRpcCompleted 0) false] ++
          [.start 0 (.markRpcCompleted 256) false]) = some w ∧
      w.shared.marked = List.range 256 ++ [0] ++ [256] ∧
        (w.shared.begin (.waitForRpc 0)).2.isSome = true := by
  constructor
  · obtain ⟨w, run, free, sound, recorded, marked⟩ :=
      run_completing_range 257
    have unknown : 0 ∉ w.shared.completedIds := by
      refine unknown_of_recorded sound ?_
      rw [lastRecorded, recorded]
      decide +kernel
    obtain ⟨-, found, ids, same⟩ := waitForRpc_unknown unknown
    refine ⟨w.turn 0 (w.shared.waitForRpc 0), runFrom_concat.mpr ⟨w, run, ?_⟩, found, ?_, ?_⟩
    · rw [Machine.step, free]
      rfl
    · show 0 ∈ (w.shared.waitForRpc 0).1.marked
      rw [same, marked]
      exact List.mem_range.mpr (Nat.succ_pos 256)
    · show 0 ∉ (w.shared.waitForRpc 0).1.completedIds
      rw [ids]
      exact unknown
  · obtain ⟨w, run, free, sound, recorded, marked⟩ :=
      run_completing_range 256
    obtain ⟨w', happens, free', sound', marks⟩ := marks_step sound free 0
    obtain ⟨w'', happens', -, sound'', marks'⟩ := marks_step sound' free' 256
    have known : 0 ∈ w.shared.completedIds := by
      rw [sound.ids, List.mem_toFinset, sound.last, lastRecorded, recorded]
      decide +kernel
    have recorded' := marks.recorded
    rw [if_pos known, recorded] at recorded'
    have new : 256 ∉ w'.shared.completedIds := by
      refine unknown_of_recorded sound' ?_
      rw [lastRecorded, recorded']
      decide +kernel
    have recorded'' := marks'.recorded
    rw [if_neg new, recorded'] at recorded''
    refine ⟨w'', runFrom_concat.mpr ⟨w', runFrom_concat.mpr ⟨w, run, happens⟩, happens'⟩, ?_, ?_⟩
    · rw [marks'.marked, marks.marked, marked]
    · refine (waitForRpc_unknown (unknown_of_recorded sound'' ?_)).1
      rw [lastRecorded, recorded'']
      decide +kernel

end Keeping

end Piltover.Gateway.Completions
