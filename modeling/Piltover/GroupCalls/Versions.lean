/- source: piltover/app/handlers/group_calls.py, piltover/app/utils/group_calls.py,
     piltover/db/models/group_call.py
   digest: What requests write to calls from the copies they have loaded, and which versions. -/

import Piltover.GroupCalls.Streams

set_option autoImplicit false

namespace Piltover.GroupCalls.Lifecycle

open Piltover.Foundation
open Piltover.Foundation.Interleaved

def current (db : Db) (copy : GroupCall) : Bool :=
  (db.calls.get copy.id).any fun row => row.version == copy.version

def opened (db : Db) (callId : Nat) : Bool :=
  (db.calls.get callId).any fun row => row.discardedAt.isNone

/-- The draft brings a participant back. -/
def returns (d : Draft) : Bool := d.fields.contains .left && !d.mem.left

def enters : Pending → Option Nat
  | .visit ⟨_, call, .creating _ _ _⟩ => some call.id
  | .visit ⟨_, call, .saving d _⟩ => if returns d then some call.id else none
  | _ => none

/-- The call that a request has found empty, or whose participants it is about to dismiss, before
it writes that the call is discarded. -/
def closes : Pending → Option Nat
  | .visit ⟨_, call, .discarding⟩ => some call.id
  | .committing _ (some (active, _)) => some active.id
  | _ => none

/-- The request writes to a call that is as it has been loaded; a participant enters a call that is
not discarded; and a call is created where none is active. -/
def ready (db : Db) : Pending → Bool
  | .visit ⟨_, call, .creating _ _ _⟩ => opened db call.id
  | .visit ⟨_, call, .saving d _⟩ => !returns d || opened db call.id
  | .visit ⟨_, call, .bumping _⟩ => current db call
  | .visit ⟨_, call, .discarding⟩ => current db call
  | .managing call refusal m =>
    match m.check call refusal with
    | .ok () => current db call
    | .error _ => true
  | .committing c none =>
    !db.calls.rows.any fun call => call.chat == c.chat && call.discardedAt.isNone
  | .committing _ (some (active, _)) => current db active
  | _ => true

def copyOf : Pending → Option GroupCall
  | .visit v => some v.call
  | .managing call _ _ => some call
  | .dismissing _ active => some active
  | .committing _ active => active.map Prod.fst
  | _ => none

/-- The copy was loaded when the call was not discarded; if its version is still the one of the call,
the call is not. -/
def Loaded (db : Db) (copy : GroupCall) : Prop :=
  ∃ row, db.calls.get copy.id = some row ∧ copy.version ≤ row.version ∧
    (row.version = copy.version → row.discardedAt = none)

/-- What becomes of a call. -/
structure Follows (row row' : GroupCall) : Prop where
  version : row.version ≤ row'.version
  same : row'.version = row.version → row'.discardedAt = row.discardedAt
  chat : row'.chat = row.chat
  closed : row.discardedAt ≠ none →
    row'.discardedAt ≠ none ∧ row'.startedAt = row.startedAt

/-- Calls stay, and follow what they were. -/
def Grows (db db' : Db) : Prop :=
  ∀ k row, db.calls.get k = some row → ∃ row', db'.calls.get k = some row' ∧ Follows row row'

section Growth

variable {db db' db'' : Db} {copy row : GroupCall}

theorem Follows.refl (row : GroupCall) : Follows row row :=
  ⟨Nat.le_refl _, fun _ => rfl, rfl, fun closed => ⟨closed, rfl⟩⟩

theorem Follows.trans {row' row'' : GroupCall} (first : Follows row row')
    (second : Follows row' row'') : Follows row row'' where
  version := Nat.le_trans first.version second.version
  same := by
    intro same
    have middle : row'.version = row.version :=
      Nat.le_antisymm (same ▸ second.version) first.version
    exact (second.same (same.trans middle.symm)).trans (first.same middle)
  chat := second.chat.trans first.chat
  closed := by
    intro closed
    obtain ⟨closed', started'⟩ := first.closed closed
    obtain ⟨closed'', started''⟩ := second.closed closed'
    exact ⟨closed'', started''.trans started'⟩

theorem Grows.refl (db : Db) : Grows db db := fun _ row got => ⟨row, got, Follows.refl row⟩

theorem Grows.trans (first : Grows db db') (second : Grows db' db'') : Grows db db'' := by
  intro k row got
  obtain ⟨row', got', follows⟩ := first k row got
  obtain ⟨row'', got'', follows'⟩ := second k row' got'
  exact ⟨row'', got'', follows.trans follows'⟩

theorem Loaded.grows (loaded : Loaded db copy) (grows : Grows db db') : Loaded db' copy := by
  obtain ⟨row, got, less, unchanged⟩ := loaded
  obtain ⟨row', got', follows⟩ := grows copy.id row got
  refine ⟨row', got', Nat.le_trans less follows.version, fun same => ?_⟩
  have middle : row.version = copy.version :=
    Nat.le_antisymm (same ▸ follows.version) less
  rw [follows.same (same.trans middle.symm)]
  exact unchanged middle

theorem Loaded.exists_row (loaded : Loaded db copy) (fresh : current db copy = true) :
    ∃ row, db.calls.get copy.id = some row ∧ row.version = copy.version ∧ row.discardedAt = none := by
  obtain ⟨row, got, -, unchanged⟩ := loaded
  rw [current, got] at fresh
  have same : row.version = copy.version := by simpa using fresh
  exact ⟨row, got, same, unchanged same⟩

theorem grows_of_modify (write : GroupCall → GroupCall) (keeps : ∀ c, (write c).id = c.id) {k : Nat}
    (same : db'.calls = db.calls.modify (fun c => c.id == k) write keeps)
    (follows : ∀ row, db.calls.get k = some row → Follows row (write row)) : Grows db db' := by
  intro l row got
  rw [same, Table.get_modify_key]
  by_cases own : k = l
  · subst own
    rw [if_pos rfl, got]
    exact ⟨_, rfl, follows row got⟩
  · rw [if_neg own]
    exact ⟨row, got, Follows.refl row⟩

theorem grows_of_insert {call : GroupCall} (fresh : db.calls.get call.id = none)
    (same : db'.calls = db.calls.insert call) : Grows db db' := by
  intro k row got
  refine ⟨row, ?_, Follows.refl row⟩
  rw [same, Table.get_insert fresh, if_neg ?_]
  · exact got
  · rintro rfl
    rw [got] at fresh
    cases fresh

end Growth

/-! ### Writes to calls -/

/-- A write to the call of a copy: the version goes up from that of the copy, and a call that is
discarded is not opened. -/
structure Writes (copy : GroupCall) (write : GroupCall → GroupCall) : Prop where
  id : ∀ c, (write c).id = c.id
  version : ∀ c, (write c).version = copy.version + 1
  chat : ∀ c, (write c).chat = c.chat
  closes : ∀ c, (write c).discardedAt = none → c.discardedAt = none

/-- The turn may discard the call: it has found it empty, or goes on to dismiss who is there. -/
def Discards (t : Pending) (next : Option Pending) (copy : GroupCall) : Prop :=
  closes t = some copy.id ∨ ∃ refusal, t = .managing copy refusal .discard ∧
    Management.discard.check copy refusal = .ok () ∧ next = some (.clearing copy.id)

inductive Effect (hall : Hall) (t : Pending) (result : Hall × Option Pending) : Prop
  | nothing (calls : result.1.db.calls = hall.db.calls)
      (changes : result.1.changes = hall.changes)
  | allocated (call : GroupCall) (calls : result.1.db.calls = (hall.db.allocate call true).calls)
      (changes : result.1.changes = hall.changes)
  | written (copy : GroupCall) (write : GroupCall → GroupCall) (writes : Writes copy write)
      (loaded : copyOf t = some copy) (fresh : current hall.db copy = true)
      (discards : (∀ c, (write c).discardedAt = c.discardedAt) ∨ Discards t result.2 copy)
      (calls : result.1.db.calls =
        hall.db.calls.modify (fun c => c.id == copy.id) write writes.id)
      (changes : result.1.changes = hall.changes ++ [⟨copy.id, copy.version + 1⟩])
  | committed (c : Creation) (active : Option (GroupCall × List Nat)) (now : Int)
      (turn : t = .committing c active) (done : result = c.commit hall active now)

section Effects

variable {env : Env} {hall : Hall} {result : Hall × Option Pending} {t : Pending} {now : Int}

theorem writes_bump (copy : GroupCall) :
    Writes copy fun c =>
      { c with version := copy.version + 1, participantsVersion := copy.version + 1 } :=
  ⟨fun _ => rfl, fun _ => rfl, fun _ => rfl, fun _ still => still⟩

theorem writes_discarded (copy : GroupCall) (now : Int) :
    Writes copy (·.discardedFrom copy now) :=
  ⟨fun _ => rfl, fun _ => rfl, fun _ => rfl, fun _ still => (by cases still)⟩

theorem writes_management (m : Management) (copy : GroupCall) (now : Int) :
    Writes copy (m.write copy now) := by
  refine ⟨m.id_write copy now, fun c => ?_, fun c => ?_, fun c still => ?_⟩
  · cases m <;> rfl
  · cases m <;> rfl
  · cases m with
    | discard => cases still
    | _ => exact still

theorem effect_visit {v : Visit} (safe : ready hall.db (.visit v) = true) (env : Env) (now : Int) :
    Effect hall (.visit v) (v.advance env hall now) := by
  obtain ⟨userId, call, stage⟩ := v
  cases stage with
  | requiring r =>
    simp only [Visit.advance]
    split <;> exact .nothing rfl rfl
  | choosing seat =>
    simp only [Visit.advance]
    split <;> exact .nothing rfl rfl
  | allocating seat source => exact .allocated call rfl rfl
  | looking r joinAs source =>
    simp only [Visit.advance]
    split <;> exact .nothing rfl rfl
  | creating r joinAs source =>
    simp only [Visit.advance, Visit.create]
    split <;> exact .nothing rfl rfl
  | saving d leaves =>
    simp only [Visit.advance, Visit.save]
    split <;> exact .nothing rfl rfl
  | bumping leaves =>
    simp only [Visit.advance]
    split <;> exact .written call _ (writes_bump call) rfl safe (.inl fun _ => rfl) rfl rfl
  | counting =>
    simp only [Visit.advance]
    split <;> exact .nothing rfl rfl
  | discarding => exact .written call _ (writes_discarded call now) rfl safe (.inr (.inl rfl)) rfl rfl

theorem effect_advance (safe : ready hall.db t = true) (env : Env) (now : Int) :
    Effect hall t (t.advance env hall now) := by
  cases t with
  | visit v => exact effect_visit safe env now
  | managing call refusal m =>
    simp only [ready] at safe
    simp only [Pending.advance]
    split
    · exact .nothing rfl rfl
    · rename_i checked
      rw [checked] at safe
      have writes := writes_management m call now
      split
      · rename_i own
        subst own
        exact .written call _ writes rfl safe (.inr (.inr ⟨refusal, rfl, checked, rfl⟩)) rfl rfl
      · rename_i other
        refine .written call _ writes rfl safe (.inl fun c => ?_) rfl rfl
        cases m with
        | discard => exact absurd rfl other
        | _ => rfl
  | clearing callId => exact .nothing rfl rfl
  | opening c =>
    simp only [Pending.advance]
    split <;> exact .nothing rfl rfl
  | dismissing c active => exact .nothing rfl rfl
  | committing c active => exact .committed c active now rfl rfl

theorem follows_write {db : Db} {copy row : GroupCall} {write : GroupCall → GroupCall}
    (writes : Writes copy write) (loaded : Loaded db copy) (fresh : current db copy = true)
    (got : db.calls.get copy.id = some row) : Follows row (write row) := by
  obtain ⟨found, got', version, free⟩ := loaded.exists_row fresh
  cases got.symm.trans got'
  refine ⟨?_, fun same => ?_, writes.chat row, fun closed => absurd free closed⟩
  · rw [writes.version, version]
    exact Nat.le_succ _
  · rw [writes.version, version] at same
    omega

theorem grows_allocate (db : Db) (call : GroupCall) :
    ∀ db' : Db, db'.calls = (db.allocate call true).calls → Grows db db' := by
  intro db' same
  refine grows_of_modify (fun c => { c with nextSource := call.nextSource + 1 }) (fun _ => rfl) same
    fun row _ => ?_
  exact ⟨Nat.le_refl _, fun _ => rfl, rfl, fun closed => ⟨closed, rfl⟩⟩

theorem grows_commit {c : Creation} {active : Option (GroupCall × List Nat)}
    (loaded : ∀ copy, copyOf (.committing c active) = some copy → Loaded hall.db copy)
    (safe : ready hall.db (.committing c active) = true) :
    Grows hall.db (c.commit hall active now).1.db := by
  have closed : Grows hall.db (hall.closeActive now active).db := by
    cases active with
    | none => exact Grows.refl _
    | some found =>
      obtain ⟨active, ids⟩ := found
      exact grows_of_modify (·.discardedFrom active now) (fun _ => rfl) rfl fun row got =>
        follows_write (writes_discarded active now) (loaded active rfl) safe got
  exact closed.trans (grows_of_insert ((hall.closeActive now active).db.calls.get_nextKey) rfl)

theorem grows_of_effect (effect : Effect hall t result)
    (loaded : ∀ copy, copyOf t = some copy → Loaded hall.db copy)
    (safe : ready hall.db t = true) : Grows hall.db result.1.db := by
  cases effect with
  | nothing calls changes =>
    intro k row got
    rw [calls]
    exact ⟨row, got, Follows.refl row⟩
  | allocated call calls changes => exact grows_allocate hall.db call result.1.db calls
  | written copy write writes known fresh discards calls changes =>
    exact grows_of_modify write writes.id calls fun row got => follows_write writes (loaded copy known) fresh got
  | committed c active now turn done =>
    subst turn done
    exact grows_commit loaded safe

/-! ### Versions -/

structure Recorded (hall : Hall) : Prop where
  sorted : hall.changes.Pairwise fun a b => a.callId = b.callId → a.version < b.version
  known : ∀ a ∈ hall.changes,
    ∃ row, hall.db.calls.get a.callId = some row ∧ a.version ≤ row.version

structure Sends (hall hall' : Hall) (more : List Change) : Prop where
  changes : hall'.changes = hall.changes ++ more
  sorted : more.Pairwise fun a b => a.callId = b.callId → a.version < b.version
  above : ∀ a ∈ more, ∀ row, hall.db.calls.get a.callId = some row → row.version < a.version
  known : ∀ a ∈ more, ∃ row, hall'.db.calls.get a.callId = some row ∧ a.version ≤ row.version

theorem sends_commit {c : Creation} {active : Option (GroupCall × List Nat)}
    (loaded : ∀ copy, copyOf (.committing c active) = some copy → Loaded hall.db copy)
    (safe : ready hall.db (.committing c active) = true) :
    ∃ more, Sends hall (c.commit hall active now).1 more := by
  cases active with
  | none =>
    let call := c.call hall.db.calls.nextKey now
    have fresh : hall.db.calls.get call.id = none := hall.db.calls.get_nextKey
    refine ⟨[⟨call.id, 1⟩], rfl, List.pairwise_singleton _ _, fun a here => ?_, fun a here => ?_⟩
    · obtain rfl := List.mem_singleton.mp here
      intro row got
      rw [fresh] at got
      cases got
    · obtain rfl := List.mem_singleton.mp here
      refine ⟨call, ?_, Nat.le_refl _⟩
      show (hall.db.calls.insert call).get call.id = some call
      rw [Table.get_insert fresh, if_pos rfl]
  | some found =>
    obtain ⟨active, ids⟩ := found
    obtain ⟨row, got, version, -⟩ := (loaded active rfl).exists_row safe
    let closed := (hall.closeActive now (some (active, ids))).db.calls
    let call := c.call closed.nextKey now
    have fresh : closed.get call.id = none := closed.get_nextKey
    have modified : ∀ k, closed.get k = if active.id = k then
        (hall.db.calls.get k).map (·.discardedFrom active now) else hall.db.calls.get k :=
      Table.get_modify_key hall.db.calls (·.discardedFrom active now) (fun _ => rfl) active.id
    have got' : closed.get active.id = some (row.discardedFrom active now) := by
      rw [modified, if_pos rfl, got]
      rfl
    have apart : call.id ≠ active.id := by
      intro same
      rw [same, got'] at fresh
      cases fresh
    refine ⟨[⟨active.id, active.version + 1⟩, ⟨call.id, 1⟩],
      List.append_assoc hall.changes [_] [_],
      List.pairwise_pair.mpr fun same => absurd same.symm apart, ?_, ?_⟩
    · intro a here row' known
      rcases List.mem_cons.mp here with rfl | last
      · cases got.symm.trans known
        rw [version]
        exact Nat.lt_succ_self _
      · obtain rfl := List.mem_singleton.mp last
        rw [modified, if_neg apart.symm] at fresh
        cases fresh.symm.trans known
    · intro a here
      rcases List.mem_cons.mp here with rfl | last
      · refine ⟨row.discardedFrom active now, ?_, Nat.le_refl _⟩
        show (closed.insert call).get active.id = _
        rw [Table.get_insert fresh, if_neg apart, got']
      · obtain rfl := List.mem_singleton.mp last
        refine ⟨call, ?_, Nat.le_refl _⟩
        show (closed.insert call).get call.id = some call
        rw [Table.get_insert fresh, if_pos rfl]

theorem sends_of_effect (effect : Effect hall t result)
    (loaded : ∀ copy, copyOf t = some copy → Loaded hall.db copy)
    (safe : ready hall.db t = true) : ∃ more, Sends hall result.1 more := by
  have nothing : result.1.changes = hall.changes → ∃ more, Sends hall result.1 more := fun same =>
    ⟨[], same.trans (List.append_nil _).symm, List.Pairwise.nil,
      fun _ here => absurd here List.not_mem_nil, fun _ here => absurd here List.not_mem_nil⟩
  cases effect with
  | nothing calls changes => exact nothing changes
  | allocated call calls changes => exact nothing changes
  | written copy write writes known fresh discards calls changes =>
    obtain ⟨row, got, version, -⟩ := (loaded copy known).exists_row fresh
    refine ⟨_, changes, List.pairwise_singleton _ _, fun a here => ?_, fun a here => ?_⟩
    · obtain rfl := List.mem_singleton.mp here
      intro row' got'
      cases got.symm.trans got'
      rw [version]
      exact Nat.lt_succ_self _
    · obtain rfl := List.mem_singleton.mp here
      refine ⟨write row, ?_, Nat.le_of_eq (writes.version row).symm⟩
      show result.1.db.calls.get copy.id = some (write row)
      rw [calls, Table.get_modify_key, if_pos rfl, got]
      rfl
  | committed c active now turn done =>
    subst turn done
    exact sends_commit loaded safe

theorem recorded_of_sends {hall' : Hall} {more : List Change} (recorded : Recorded hall)
    (grows : Grows hall.db hall'.db) (sends : Sends hall hall' more) : Recorded hall' := by
  constructor
  · rw [sends.changes, List.pairwise_append]
    refine ⟨recorded.sorted, sends.sorted, fun a old b new same => ?_⟩
    obtain ⟨row, got, less⟩ := recorded.known a old
    exact Nat.lt_of_le_of_lt less (sends.above b new row (same ▸ got))
  · intro a here
    rw [sends.changes, List.mem_append] at here
    rcases here with old | new
    · obtain ⟨row, got, less⟩ := recorded.known a old
      obtain ⟨row', got', follows⟩ := grows a.callId row got
      exact ⟨row', got', Nat.le_trans less follows.version⟩
    · exact sends.known a new

end Effects

end Piltover.GroupCalls.Lifecycle
