/- source: piltover/session/session.py, piltover/db/models/user_authorization.py
   digest: Sequence numbers of updates: given in memory, stored by tasks, refreshed from the database. -/

import Mathlib.Data.List.Chain
import Piltover.Foundation.Interleaved

set_option autoImplicit false

namespace Piltover.Gateway.UpdSeq

open Piltover.Foundation.Runs
open Piltover.Foundation.Interleaved

structure UserAuthorization where
  id : Nat
  updSeq : Nat
  deriving DecidableEq, Repr

/-- A session with the authorization of its key; `writes` are the tasks of `_persist_upd_seq` that
are not done, in the order of their creation, and `given` what updates have got. -/
structure Session where
  auth : Option UserAuthorization
  authId : Option Nat
  updSeq : Option Nat
  locked : Bool
  writes : List (Option Nat × Nat)
  given : List Nat
  deriving DecidableEq, Repr

/-- An object is queued, which may need values of its context; or the authorization is refreshed,
of a key that may be unbound, and that is due or forced. -/
inductive Asked
  | enqueue (isUpdates needsContext : Bool)
  | refresh (bound due : Bool)
  deriving DecidableEq, Repr

/-- Where a call awaits. -/
inductive Stage
  | waiting (isUpdates needsContext : Bool)
  | resolving (isUpdates : Bool)
  | loading (authId : Nat)
  | loaded (found : Option Nat)
  | querying
  | queried (found : Option UserAuthorization)
  deriving DecidableEq, Repr

/-- The task with this number is done. -/
inductive Other
  | persisted (task : Nat)
  deriving DecidableEq, Repr

namespace Session

variable (s : Session)

def resetAuth : Session := { s with authId := none, updSeq := none }

/-- The query for the number of an authorization. -/
def find (authId : Nat) : Option Nat := (s.auth.filter fun auth => auth.id == authId).map (·.updSeq)

def persistUpdSeq (authId : Option Nat) (seq : Nat) : Session :=
  { s with auth := s.auth.map fun auth =>
      if some auth.id == authId then { auth with updSeq := seq } else auth }

/-- The counter goes up, a task is created, and the object is queued with the number. -/
def give (updSeq : Nat) : Session :=
  { s with
    updSeq := some (updSeq + 1)
    locked := false
    writes := s.writes ++ [(s.authId, updSeq + 1)]
    given := s.given ++ [updSeq + 1] }

/-- `enqueue` from where the values of the context are known. -/
def number (isUpdates : Bool) : Session × Option Stage :=
  match isUpdates, s.authId with
  | true, some authId =>
    match s.updSeq with
    | none => (s, some (.loading authId))
    | some updSeq => (s.give updSeq, none)
  | _, _ => ({ s with locked := false }, none)

def begin : Asked → Session × Option Stage
  | .enqueue isUpdates needsContext => (s, some (.waiting isUpdates needsContext))
  | .refresh bound due =>
    if bound then (s, if due || s.authId.isNone then some .querying else none)
    else (s.resetAuth, none)

def advance : Stage → Session × Option Stage
  | .waiting isUpdates needsContext =>
    if s.locked then (s, some (.waiting isUpdates needsContext))
    else if needsContext then ({ s with locked := true }, some (.resolving isUpdates))
    else number { s with locked := true } isUpdates
  | .resolving isUpdates => s.number isUpdates
  | .loading authId => (s, some (.loaded (s.find authId)))
  | .loaded found => (s.give (found.getD 0), none)
  | .querying => (s, some (.queried s.auth))
  | .queried none => (s.resetAuth, none)
  | .queried (some auth) => ({ s with authId := some auth.id, updSeq := some auth.updSeq }, none)

def disturb : Other → Session
  | .persisted task =>
    match s.writes[task]? with
    | none => s
    | some (authId, seq) => { s.persistUpdSeq authId seq with writes := s.writes.eraseIdx task }

end Session

/-- The calls of a session and its tasks in any order. -/
def numbering : Machine Session Asked Stage Unit Other where
  begin := fun s asked _ => s.begin asked
  advance := fun s stage _ => s.advance stage
  disturb := Session.disturb

abbrev Calls := World Session Stage

abbrev Happening := Event Asked Unit Other

/-- Numbers go up by one, and once all tasks are done the last one is stored. -/
structure Numbered (w : Calls) : Prop where
  byOne : w.shared.given.IsChain fun a b => b = a + 1
  stored : w.shared.writes = [] → ∀ last, w.shared.given.getLast? = some last →
    w.shared.auth.map (·.updSeq) = some last

/-- A refresh brings the number that the session has, or none has been given yet; and a task does not
store a number below the one that is stored. -/
def Orderly (w : Calls) : Happening → Prop
  | .go n _ => ∀ auth, w.calls n = some (.queried (some auth)) →
      w.shared.given = [] ∨ w.shared.updSeq = some auth.updSeq
  | .other (.persisted task) => ∀ authId seq auth, w.shared.writes[task]? = some (authId, seq) →
      w.shared.auth = some auth → auth.updSeq ≤ seq
  | .start _ _ _ => True

/-- Nothing is under way, and no number has been given. -/
structure Begins (authId : Nat) (w : Calls) : Prop where
  idle : w.Idle
  unlocked : w.shared.locked = false
  auth : ∃ auth, w.shared.auth = some auth ∧ auth.id = authId
  writes : w.shared.writes = []
  given : w.shared.given = []

/-- The call holds the lock. -/
def Stage.holds : Stage → Bool
  | .resolving _ | .loading _ | .loaded _ => true
  | _ => false

/-- The call has found no number in the session. -/
def Stage.loads : Stage → Bool
  | .loading _ | .loaded _ => true
  | _ => false

/-- What is true of the session between turns. -/
structure Kept (authId : Nat) (s : Session) : Prop where
  auth : ∃ auth, s.auth = some auth ∧ auth.id = authId
  byOne : s.given.IsChain fun a b => b = a + 1
  current : ∀ last, s.given.getLast? = some last → s.updSeq = some last
  last : ∀ last, s.given.getLast? = some last →
    s.auth.map (·.updSeq) = some last ∨ (some authId, last) ∈ s.writes
  below : ∀ x ∈ s.writes, x.1 = some authId ∧ ∃ last, s.given.getLast? = some last ∧ x.2 ≤ last

/-- What is true between turns. -/
structure Sound (authId : Nat) (w : Calls) : Prop where
  kept : Kept authId w.shared
  alone : ∀ n m t u, w.calls n = some t → w.calls m = some u → t.holds = true → u.holds = true → n = m
  locked : ∀ n t, w.calls n = some t → t.holds = true → w.shared.locked = true
  early : ∀ n t, w.calls n = some t → t.loads = true → w.shared.given = []

section Sessions

variable {authId : Nat} {s : Session}

theorem Stage.holds_of_loads {t : Stage} (loads : t.loads = true) : t.holds = true := by
  cases t with
  | loading authId => rfl
  | loaded found => rfl
  | _ => cases loads

theorem kept_lock (kept : Kept authId s) (locked : Bool) : Kept authId { s with locked } :=
  ⟨kept.auth, kept.byOne, kept.current, kept.last, kept.below⟩

theorem kept_give {updSeq : Nat} (kept : Kept authId s) (own : s.authId = some authId)
    (next : ∀ last, s.given.getLast? = some last → last = updSeq) :
    Kept authId (s.give updSeq) := by
  have newest : ∀ last, (s.give updSeq).given.getLast? = some last → updSeq + 1 = last := by
    intro last found
    rw [Session.give, List.getLast?_concat] at found
    exact Option.some.inj found
  refine ⟨kept.auth, ?_, fun last found => ?_, fun last found => .inr ?_, fun x listed => ?_⟩
  · refine kept.byOne.append (List.isChain_singleton _) fun a last b first => ?_
    rw [next a last]
    exact (Option.some.inj first).symm
  · rw [← newest last found]
    rfl
  · rw [← newest last found, ← own]
    exact List.mem_append_right _ List.mem_cons_self
  · refine ⟨?_, updSeq + 1, List.getLast?_concat, ?_⟩
    · rcases List.mem_append.mp listed with old | new
      · exact (kept.below x old).1
      · rw [List.mem_singleton.mp new]
        exact own
    · rcases List.mem_append.mp listed with old | new
      · obtain ⟨-, last, found, below⟩ := kept.below x old
        exact Nat.le_succ_of_le (next last found ▸ below)
      · rw [List.mem_singleton.mp new]

theorem kept_refresh {auth : UserAuthorization} (kept : Kept authId s)
    (same : s.given = [] ∨ s.updSeq = some auth.updSeq) :
    Kept authId { s with authId := some auth.id, updSeq := some auth.updSeq } := by
  refine ⟨kept.auth, kept.byOne, fun last found => ?_, kept.last, kept.below⟩
  rcases same with none' | same
  · rw [none'] at found
    cases found
  · exact same ▸ kept.current last found

theorem kept_persisted {task : Nat} (kept : Kept authId s)
    (orderly : ∀ authId seq auth, s.writes[task]? = some (authId, seq) → s.auth = some auth →
      auth.updSeq ≤ seq) : Kept authId (s.disturb (.persisted task)) := by
  simp only [Session.disturb]
  split
  · exact kept
  · rename_i holder seq found
    obtain ⟨auth, row, named⟩ := kept.auth
    obtain ⟨rfl, last, newest, below⟩ := kept.below _ (List.mem_of_getElem? found)
    have stored : (s.persistUpdSeq (some authId) seq).auth = some { auth with updSeq := seq } := by
      rw [Session.persistUpdSeq, row, Option.map_some, if_pos (by rw [named, beq_self_eq_true])]
    refine ⟨⟨_, stored, named⟩, kept.byOne, kept.current, fun last' newest' => ?_,
      fun x listed => kept.below x (List.mem_of_mem_eraseIdx listed)⟩
    obtain rfl : last = last' := Option.some.inj (newest.symm.trans newest')
    have up := orderly _ _ auth found row
    by_cases own : seq = last
    · subst own
      exact .inl (congrArg _ stored)
    · refine .inr ?_
      rcases kept.last last newest with done | pending
      · -- the last number is stored, and this one is below it
        rw [row] at done
        have same : auth.updSeq = last := Option.some.inj done
        exact absurd (Nat.le_antisymm below (same ▸ up)) own
      · refine (List.mem_eraseIdx_iff_getElem? ..).mpr ?_
        obtain ⟨i, there⟩ := List.getElem?_of_mem pending
        refine ⟨i, ?_, there⟩
        rintro rfl
        exact own (congrArg Prod.snd (Option.some.inj (found.symm.trans there)))

end Sessions

section Steps

variable {authId : Nat} {w w' : Calls} {e : Happening} {n : Nat}

theorem sound_of_holder {result : Session × Option Stage} (kept : Kept authId result.1)
    (others : ∀ m t, m ≠ n → w.calls m = some t → t.holds = false)
    (locked : ∀ t, result.2 = some t → t.holds = true → result.1.locked = true)
    (early : ∀ t, result.2 = some t → t.loads = true → result.1.given = []) :
    Sound authId (w.turn n result) := by
  have own : ∀ m t, (w.turn n result).calls m = some t → t.holds = true →
      m = n ∧ result.2 = some t := by
    intro m t here holds
    rcases World.calls_turn_cases here with found | ⟨apart, before⟩
    · exact found
    · rw [others m t apart before] at holds
      cases holds
  refine ⟨kept, fun k m t u here there holds holds' => ?_, fun m t here holds => ?_,
    fun m t here loads => ?_⟩
  · exact (own k t here holds).1.trans (own m u there holds').1.symm
  · exact locked t (own m t here holds).2 holds
  · exact early t (own m t here (Stage.holds_of_loads loads)).2 loads

theorem sound_of_quiet {result : Session × Option Stage} (sound : Sound authId w)
    (kept : Kept authId result.1) (lock : result.1.locked = w.shared.locked)
    (given : result.1.given = w.shared.given)
    (free : ∀ t, result.2 = some t → t.holds = false) : Sound authId (w.turn n result) := by
  have old : ∀ m t, (w.turn n result).calls m = some t → t.holds = true →
      w.calls m = some t := by
    intro m t here holds
    rcases World.calls_turn_cases here with ⟨-, next⟩ | ⟨-, before⟩
    · rw [free t next] at holds
      cases holds
    · exact before
  refine ⟨kept, fun k m t u here there holds holds' => ?_, fun m t here holds => ?_,
    fun m t here loads => ?_⟩
  · exact sound.alone k m t u (old k t here holds) (old m u there holds') holds holds'
  · exact lock.trans (sound.locked m t (old m t here holds) holds)
  · exact given.trans (sound.early m t (old m t here (Stage.holds_of_loads loads)) loads)

theorem sound_number {s : Session} (kept : Kept authId s) (own : s.authId = some authId)
    (others : ∀ m t, m ≠ n → w.calls m = some t → t.holds = false) (locked : s.locked = true)
    (isUpdates : Bool) : Sound authId (w.turn n (s.number isUpdates)) := by
  unfold Session.number
  split
  · split
    · rename_i unknown
      refine sound_of_holder kept others (fun _ _ _ => locked) fun t next loads => ?_
      cases last : s.given.getLast? with
      | none => exact List.getLast?_eq_none_iff.mp last
      | some last' =>
        rw [kept.current last' last] at unknown
        cases unknown
    · rename_i updSeq known
      refine sound_of_holder (kept_give kept own fun last found => ?_) others
        (fun t next => (by cases next)) fun t next => (by cases next)
      exact Option.some.inj ((kept.current last found).symm.trans known)
  · exact sound_of_holder (kept_lock kept false) others (fun t next => (by cases next))
      fun t next => (by cases next)

theorem sound_turn {t : Stage} (sound : Sound authId w) (here : w.calls n = some t)
    (own : w.shared.authId = some authId) (stays : (w.shared.advance t).1.authId = some authId)
    (orderly : Orderly w (.go n ())) : Sound authId (w.turn n (w.shared.advance t)) := by
  have others : t.holds = true → ∀ m u, m ≠ n → w.calls m = some u → u.holds = false := by
    intro holds m u apart there
    by_contra holds'
    exact apart (sound.alone m n u t there here (Bool.not_eq_false _ ▸ holds') holds)
  cases t with
  | waiting isUpdates needsContext =>
    cases lock : w.shared.locked with
    | true =>
      rw [Session.advance, if_pos lock]
      refine sound_of_quiet sound sound.kept rfl rfl fun u next => ?_
      cases next
      rfl
    | false =>
      have free : ∀ m u, m ≠ n → w.calls m = some u → u.holds = false := by
        intro m u _ there
        by_contra holds
        have taken := sound.locked m u there (Bool.not_eq_false _ ▸ holds)
        rw [lock] at taken
        cases taken
      rw [Session.advance, if_neg (by rw [lock]; exact Bool.false_ne_true)]
      split
      · refine sound_of_holder (kept_lock sound.kept true) free (fun _ _ _ => rfl) ?_
        intro u next loads
        cases next
        cases loads
      · exact sound_number (kept_lock sound.kept true) own free rfl isUpdates
  | resolving isUpdates =>
    exact sound_number sound.kept own (others rfl) (sound.locked n _ here rfl) isUpdates
  | loading authId' =>
    refine sound_of_holder sound.kept (others rfl) (fun _ _ _ => sound.locked n _ here rfl) ?_
    exact fun _ _ _ => sound.early n _ here rfl
  | loaded found =>
    refine sound_of_holder (kept_give sound.kept own fun last newest => ?_) (others rfl)
      (fun u next => (by cases next)) fun u next => (by cases next)
    rw [sound.early n _ here rfl] at newest
    cases newest
  | querying =>
    refine sound_of_quiet sound sound.kept rfl rfl fun u next => ?_
    cases next
    rfl
  | queried found =>
    cases found with
    | none => cases stays
    | some auth =>
      exact sound_of_quiet sound (kept_refresh sound.kept (orderly auth here)) rfl rfl
        fun u next => (by cases next)

theorem sound_step (sound : Sound authId w) (own : w.shared.authId = some authId)
    (orderly : Orderly w e) (happens : numbering.step w e = some w')
    (stays : w'.shared.authId = some authId) : Sound authId w' := by
  rcases Machine.step_cases happens with ⟨n, asked, now, rfl, -, rfl⟩ |
    ⟨n, now, t, rfl, here, rfl⟩ | ⟨what, rfl, rfl⟩
  · cases asked with
    | enqueue isUpdates needsContext =>
      refine sound_of_quiet sound sound.kept rfl rfl fun u next => ?_
      cases next
      rfl
    | refresh bound due =>
      cases bound with
      | false => cases stays
      | true =>
        refine sound_of_quiet sound sound.kept rfl rfl fun u next => ?_
        have next : (if due || w.shared.authId.isNone then some Stage.querying else none) =
          some u := next
        split at next
        · cases next
          rfl
        · cases next
  · exact sound_turn sound here own stays orderly
  · obtain ⟨task⟩ := what
    have shared : (w.shared.disturb (.persisted task)).locked = w.shared.locked ∧
        (w.shared.disturb (.persisted task)).given = w.shared.given := by
      simp only [Session.disturb]
      split <;> exact ⟨rfl, rfl⟩
    refine ⟨kept_persisted sound.kept orderly, sound.alone, fun n t here holds => ?_,
      fun n t here loads => ?_⟩
    · exact shared.1.trans (sound.locked n t here holds)
    · exact shared.2.trans (sound.early n t here loads)

theorem sound_of_begins (begins : Begins authId w) : Sound authId w := by
  have nothing : ∀ n t, w.calls n ≠ some t := by
    intro n t here
    rw [begins.idle n] at here
    cases here
  refine ⟨⟨begins.auth, ?_, fun last found => ?_, fun last found => ?_, fun x listed => ?_⟩,
    fun n m t u here => absurd here (nothing n t), fun n t here => absurd here (nothing n t),
    fun n t here => absurd here (nothing n t)⟩
  · rw [begins.given]
    exact List.isChain_nil
  · rw [begins.given] at found
    cases found
  · rw [begins.given] at found
    cases found
  · rw [begins.writes] at listed
    exact absurd listed List.not_mem_nil

theorem numbered_of_sound (sound : Sound authId w) : Numbered w := by
  refine ⟨sound.kept.byOne, fun done last found => ?_⟩
  rcases sound.kept.last last found with stored | pending
  · exact stored
  · rw [done] at pending
    exact absurd pending List.not_mem_nil

end Steps

/-- As long as the authorization stays the same, the numbers of a session go up by one and the last
one is stored in the end, in every order of its calls and tasks in which refreshes bring the number
that the session has and tasks store no number below the stored one. -/
theorem numbers_go_up {authId : Nat} {w : Calls} {es : List Happening} (begins : Begins authId w)
    (stays : HoldsAlong numbering.step (fun v => v.shared.authId = some authId) w es)
    (meets : StepsMeet numbering.step Orderly w es) : HoldsAlong numbering.step Numbered w es := by
  refine holdsAlong_of_stepsMeet (fun _ => numbered_of_sound)
    (fun v e v' sound good happens => ?_) (sound_of_begins begins)
    (stepsMeet_and.mpr ⟨meets, stepsMeet_of_holdsAlong stays⟩)
  obtain ⟨orderly, own, after⟩ := good
  exact sound_step sound own orderly happens (after v' happens)

private def resumed (updSeq : Option Nat) : Calls where
  shared := ⟨some ⟨9, 4⟩, some 9, updSeq, false, [], []⟩
  calls := fun _ => none

private theorem resumed_begins (updSeq : Option Nat) : Begins 9 (resumed updSeq) :=
  ⟨fun _ => rfl, rfl, ⟨⟨9, 4⟩, rfl, rfl⟩, rfl, rfl⟩

/-- Two updates, each stored before the refresh that follows. -/
private def calm : List Happening :=
  [.start 0 (.enqueue true false) (), .start 1 (.refresh true true) (), .go 0 (), .go 1 (), .go 0 (),
    .go 1 (), .go 0 (), .other (.persisted 0), .start 1 (.refresh true true) (), .go 1 (),
    .start 0 (.enqueue true true) (), .go 0 (), .go 1 (), .go 0 (), .other (.persisted 0)]

example : (runFrom numbering.step (resumed none) calm).map (fun w =>
    (w.shared.given, w.shared.writes, w.shared.auth)) = some ([5, 6], [], some ⟨9, 6⟩) := by
  decide

theorem calm_numbered : HoldsAlong numbering.step Numbered (resumed none) calm := by
  have stays : HoldsAlong numbering.step (fun v => v.shared.authId = some 9) (resumed none) calm := by
    repeat refine (holdsAlong_cons rfl).mpr ⟨rfl, ?_⟩
    exact holdsAlong_nil.mpr rfl
  refine numbers_go_up (resumed_begins none) stays ?_
  -- the other turns bring no number
  have other : ∀ {w : Calls} {n : Nat} {t : Stage}, w.calls n = some t →
      (∀ auth, t ≠ .queried (some auth)) → Orderly w (.go n ()) :=
    fun here apart auth there => absurd (Option.some.inj (here.symm.trans there)) (apart auth)
  refine (stepsMeet_cons rfl).mpr ⟨trivial, (stepsMeet_cons rfl).mpr ⟨trivial, ?_⟩⟩
  refine (stepsMeet_cons rfl).mpr ⟨other rfl fun _ => Stage.noConfusion, ?_⟩
  refine (stepsMeet_cons rfl).mpr ⟨other rfl fun _ => Stage.noConfusion, ?_⟩
  refine (stepsMeet_cons rfl).mpr ⟨other rfl fun _ => Stage.noConfusion, ?_⟩
  refine (stepsMeet_cons rfl).mpr ⟨fun _ _ => .inl rfl, ?_⟩
  refine (stepsMeet_cons rfl).mpr ⟨other rfl fun _ => Stage.noConfusion, ?_⟩
  refine (stepsMeet_cons rfl).mpr ⟨?_, (stepsMeet_cons rfl).mpr ⟨trivial, ?_⟩⟩
  · intro authId seq auth pending row
    cases pending
    cases row
    decide
  refine (stepsMeet_cons rfl).mpr ⟨other rfl fun _ => Stage.noConfusion, ?_⟩
  refine (stepsMeet_cons rfl).mpr ⟨trivial, ?_⟩
  refine (stepsMeet_cons rfl).mpr ⟨other rfl fun _ => Stage.noConfusion, ?_⟩
  refine (stepsMeet_cons rfl).mpr ⟨fun _ here => by cases here; exact .inr rfl, ?_⟩
  refine (stepsMeet_cons rfl).mpr ⟨other rfl fun _ => Stage.noConfusion, ?_⟩
  refine (stepsMeet_cons rfl).mpr ⟨?_, trivial⟩
  intro authId seq auth pending row
  cases pending
  cases row
  decide

/-- A refresh between two updates, before the first of them is stored. -/
private def hasty : List Happening :=
  [.start 0 (.enqueue true false) (), .go 0 (), .start 1 (.refresh true true) (), .go 1 (), .go 1 (),
    .start 0 (.enqueue true false) (), .go 0 ()]

/-- The number that has been given is given again. -/
theorem number_twice : ¬ ∀ (authId : Nat) (w : Calls) (es : List Happening), Begins authId w →
    HoldsAlong numbering.step (fun v => v.shared.authId = some authId) w es →
      HoldsAlong numbering.step Numbered w es := by
  intro all
  have stays : HoldsAlong numbering.step (fun v => v.shared.authId = some 9) (resumed (some 4))
      hasty := by
    repeat refine (holdsAlong_cons rfl).mpr ⟨rfl, ?_⟩
    exact holdsAlong_nil.mpr rfl
  have numbered := all 9 (resumed (some 4)) hasty (resumed_begins _) stays _ _ (List.prefix_refl _) rfl
  have byOne : [5, 5].IsChain fun a b => b = a + 1 := numbered.byOne
  exact absurd byOne (by decide)

end Piltover.Gateway.UpdSeq
