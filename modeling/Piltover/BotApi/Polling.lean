/- source: piltover/app/utils/bot_api/updates.py
   digest: The updates that bots poll for: enqueuing, long polls and what they return. -/

import Mathlib.Data.List.Nodup
import Mathlib.Data.List.Sublists
import Mathlib.Logic.Function.Basic
import Piltover.Foundation.Runs

set_option autoImplicit false

namespace Piltover.BotApi.Polling

open Foundation.Runs

/-! ### The store of a bot -/

/-- `_UPDATE_TYPE_KEYS`. -/
inductive UpdateType
  | message
  | channelPost
  | callbackQuery
  | preCheckoutQuery
  deriving DecidableEq, Repr

def UpdateType.key : UpdateType → String
  | .message => "message"
  | .channelPost => "channel_post"
  | .callbackQuery => "callback_query"
  | .preCheckoutQuery => "pre_checkout_query"

structure Update where
  updateId : Nat
  type : UpdateType
  payload : String
  createdAt : Int
  deriving DecidableEq, Repr

structure PublicUpdate where
  updateId : Nat
  type : UpdateType
  payload : String
  deriving DecidableEq, Repr

def publicUpdate (u : Update) : PublicUpdate := ⟨u.updateId, u.type, u.payload⟩

/-- `_BotUpdatesState` of a bot without a webhook; the events that wait are named by their calls. -/
structure BotUpdatesState where
  updates : List Update
  nextUpdateId : Nat
  waiters : List Nat
  pollingAllowedUpdates : Option (List String)
  deriving DecidableEq, Repr

def maxUpdatesPerBot : Nat := 10000

def maxUpdateAgeSeconds : Int := 24 * 60 * 60

def isUpdateAllowed (allowed : Option (List String)) (u : Update) : Bool :=
  match allowed with
  | none => true
  | some types => types.isEmpty || types.contains u.type.key

namespace BotUpdatesState

variable (s : BotUpdatesState)

/-- The updates that `_prune_old_updates` keeps. -/
def unpruned (now : Int) : List Update :=
  let updates := s.updates.filter fun u => decide (now - u.createdAt < maxUpdateAgeSeconds)
  if maxUpdatesPerBot < updates.length then updates.drop (updates.length - maxUpdatesPerBot)
  else updates

/-- `_enqueue_update`, which does not wait anywhere. -/
def enqueueUpdate (now : Int) (type : UpdateType) (payload : String) : BotUpdatesState :=
  let update : Update := ⟨s.nextUpdateId, type, payload, now⟩
  let pruned := { s with nextUpdateId := s.nextUpdateId + 1, updates := s.unpruned now }
  if isUpdateAllowed s.pollingAllowedUpdates update then
    { pruned with updates := pruned.updates ++ [update], waiters := [] }
  else pruned

end BotUpdatesState

/-! ### Polls -/

/-- The arguments of `get_updates`. -/
structure Request where
  offset : Option Int
  limit : Int
  timeout : Int
  allowedUpdates : Option (List String)
  deriving DecidableEq, Repr

/-- `max(1, min(limit, 100))`. -/
def Request.size (r : Request) : Nat := (max 1 (min r.limit 100)).toNat

/-- A call that waits for its event. -/
structure Waiting where
  offset : Option Int
  size : Nat
  deriving DecidableEq, Repr

/-- What a call has returned. -/
structure Answer where
  offset : Option Int
  updates : List PublicUpdate
  deriving DecidableEq, Repr

/-- The store, the calls that wait, and the answers so far. -/
structure World where
  bot : BotUpdatesState
  calls : Nat → Option Waiting
  answers : List Answer

/-- What happens without a pause: an update is enqueued at a time, a poll starts, or one that waits
goes on, because of its event or of its timeout. -/
inductive Event
  | enqueue (now : Int) (type : UpdateType) (payload : String)
  | poll (call : Nat) (request : Request)
  | wake (call : Nat)
  deriving DecidableEq, Repr

namespace World

def start : World := ⟨⟨[], 1, [], none⟩, fun _ => none, []⟩

variable (w : World)

/-- The last part of `get_updates`: the first updates are returned, and forgotten. -/
def answer (offset : Option Int) (size : Nat) : World :=
  { w with
    bot := { w.bot with updates := w.bot.updates.drop size }
    answers := w.answers ++ [⟨offset, (w.bot.updates.take size).map publicUpdate⟩] }

def unconfirmed (offset : Option Int) : List Update :=
  w.bot.updates.filter fun u => offset.all fun o => decide (o ≤ (u.updateId : Int))

/-- The first part of `get_updates`: the types that are allowed are stored, and what the offset
confirms is forgotten. -/
def confirm (r : Request) : World :=
  { w with
    bot := { w.bot with
      pollingAllowedUpdates := r.allowedUpdates.or w.bot.pollingAllowedUpdates
      updates := w.unconfirmed r.offset } }

/-- `get_updates` up to where it waits or answers. -/
def poll (call : Nat) (r : Request) : World :=
  let w := w.confirm r
  if w.bot.updates.isEmpty && decide (0 < r.timeout) then
    { w with
      bot := { w.bot with waiters := w.bot.waiters ++ [call] }
      calls := Function.update w.calls call (some ⟨r.offset, r.size⟩) }
  else w.answer r.offset r.size

def wake (call : Nat) (waiting : Waiting) : World :=
  { w with
    bot := { w.bot with waiters := w.bot.waiters.erase call }
    calls := Function.update w.calls call none }.answer waiting.offset waiting.size

/-- A poll starts under a number that is free. -/
def step : Event → Option World
  | .enqueue now type payload => some { w with bot := w.bot.enqueueUpdate now type payload }
  | .poll call request =>
    match w.calls call with
    | none => some (w.poll call request)
    | some _ => none
  | .wake call => (w.calls call).map (w.wake call)

/-! ### What is promised -/

def answeredIds : List Nat := w.answers.flatMap fun a => a.updates.map PublicUpdate.updateId

/-- What holds of the answers: no update is in them twice, each is in order and respects the offset
of its call. -/
structure Fine : Prop where
  once : w.answeredIds.Nodup
  ordered : ∀ a ∈ w.answers, a.updates.Pairwise fun u v => u.updateId < v.updateId
  offsets : ∀ a ∈ w.answers, ∀ o ∈ a.offset, ∀ u ∈ a.updates, o ≤ u.updateId

/-- The update is neither pruned, because of its age or the size limit, nor confirmed. -/
def Lasts (u : Update) : Event → Prop
  | .enqueue now _ _ => u ∈ w.bot.unpruned now
  | .poll _ request => ∀ o ∈ request.offset, o ≤ u.updateId
  | .wake _ => True

/-- The stored updates that come before one. -/
def older (u : Update) : Nat := w.bot.updates.countP fun v => decide (v.updateId < u.updateId)

/-- When a poll that has waited goes on, no update below its offset is stored. -/
def Reaches : Event → Prop
  | .enqueue .. | .poll .. => True
  | .wake call => ∀ waiting ∈ w.calls call, ∀ o ∈ waiting.offset,
      ∀ u ∈ w.bot.updates.head?, o ≤ u.updateId

end World

def Event.isPoll : Event → Bool
  | .poll .. => true
  | _ => false

/-- What is promised of a run: the answers are fine all along, and an update that is stored and lasts
is returned after as many polls as there are updates before it, and one more. -/
structure Delivers (es : List Event) : Prop where
  fine : HoldsAlong World.step World.Fine World.start es
  returned : ∀ before after (s t : World) (u : Update), before ++ after <+: es →
    runFrom World.step World.start before = some s → u ∈ s.bot.updates →
    StepsMeet World.step (fun w => w.Lasts u) s after → runFrom World.step s after = some t →
    s.older u < after.countP Event.isPoll →
    ∃ later, t.answers = s.answers ++ later ∧ ∃ a ∈ later, publicUpdate u ∈ a.updates

/-! ### The invariant -/

theorem Request.size_pos (r : Request) : 0 < r.size := by
  rw [Request.size]
  omega

namespace World

/-- All identifiers that were given to updates which were answered or are stored. -/
def ids (w : World) : List Nat := w.answeredIds ++ w.bot.updates.map Update.updateId

structure Inv (w : World) : Prop where
  once : w.ids.Nodup
  given : ∀ n ∈ w.ids, n < w.bot.nextUpdateId
  sorted : w.bot.updates.Pairwise fun u v => u.updateId < v.updateId
  ordered : ∀ a ∈ w.answers, a.updates.Pairwise fun u v => u.updateId < v.updateId
  sizes : ∀ call, ∀ waiting ∈ w.calls call, 0 < waiting.size

theorem inv_start : start.Inv where
  once := List.nodup_nil
  given := fun n listed => absurd listed List.not_mem_nil
  sorted := List.Pairwise.nil
  ordered := fun a listed => absurd listed List.not_mem_nil
  sizes := by rintro call waiting ⟨⟩

variable {w : World}

theorem Inv.narrow (inv : w.Inv) (bot : BotUpdatesState)
    (fewer : bot.updates.Sublist w.bot.updates) (next : bot.nextUpdateId = w.bot.nextUpdateId)
    {calls : Nat → Option Waiting} (sizes : ∀ call, ∀ waiting ∈ calls call, 0 < waiting.size) :
    World.Inv { w with bot, calls } where
  once := inv.once.sublist ((List.Sublist.refl _).append (fewer.map _))
  given := by
    intro n listed
    rw [next]
    exact inv.given n (((List.Sublist.refl _).append (fewer.map _)).subset listed)
  sorted := inv.sorted.sublist fewer
  ordered := inv.ordered
  sizes := sizes

theorem answeredIds_answer (offset : Option Int) (size : Nat) :
    (w.answer offset size).answeredIds =
      w.answeredIds ++ (w.bot.updates.take size).map Update.updateId := by
  rw [answer, answeredIds, List.flatMap_append, List.flatMap_singleton, List.map_map]
  rfl

theorem ids_answer (offset : Option Int) (size : Nat) : (w.answer offset size).ids = w.ids := by
  rw [ids, answeredIds_answer, ids, List.append_assoc]
  refine congrArg _ ?_
  rw [answer, ← List.map_append, List.take_append_drop]

theorem Inv.answer (inv : w.Inv) (offset : Option Int) (size : Nat) :
    (w.answer offset size).Inv where
  once := by
    rw [ids_answer]
    exact inv.once
  given := by
    rw [ids_answer]
    exact inv.given
  sorted := inv.sorted.sublist (List.drop_sublist _ _)
  ordered := by
    intro a listed
    rcases List.mem_append.mp listed with before | is_last
    · exact inv.ordered a before
    · rw [List.mem_singleton.mp is_last]
      exact List.pairwise_map.mpr (inv.sorted.sublist (List.take_sublist _ _))
  sizes := inv.sizes

theorem unpruned_sublist (s : BotUpdatesState) (now : Int) :
    (s.unpruned now).Sublist s.updates := by
  rw [BotUpdatesState.unpruned]
  split
  · exact (List.drop_sublist _ _).trans List.filter_sublist
  · exact List.filter_sublist

theorem unconfirmed_sublist (offset : Option Int) :
    (w.unconfirmed offset).Sublist w.bot.updates := List.filter_sublist

theorem Inv.enqueue (inv : w.Inv) (now : Int) (type : UpdateType) (payload : String) :
    World.Inv { w with bot := w.bot.enqueueUpdate now type payload } := by
  have kept := inv.narrow { w.bot with updates := w.bot.unpruned now }
    (unpruned_sublist w.bot now) rfl inv.sizes
  rw [BotUpdatesState.enqueueUpdate]
  have later : ∀ n, n < w.bot.nextUpdateId → n < w.bot.nextUpdateId + 1 :=
    fun n before => Nat.lt_succ_of_lt before
  split
  · refine ⟨?_, ?_, ?_, inv.ordered, inv.sizes⟩
    · have fresh : ∀ n ∈ World.ids { w with bot := { w.bot with updates := w.bot.unpruned now } },
          n ≠ w.bot.nextUpdateId := fun n listed => Nat.ne_of_lt (kept.given n listed)
      change (w.answeredIds ++ (w.bot.unpruned now ++ [_]).map Update.updateId).Nodup
      rw [List.map_append, ← List.append_assoc]
      refine List.nodup_append.mpr ⟨kept.once, List.nodup_singleton _, fun a listed b is_new => ?_⟩
      rw [List.mem_singleton.mp is_new]
      exact fresh a listed
    · intro n listed
      change n ∈ w.answeredIds ++ (w.bot.unpruned now ++ [_]).map Update.updateId at listed
      rw [List.map_append, ← List.append_assoc] at listed
      rcases List.mem_append.mp listed with before | is_new
      · exact later n (kept.given n before)
      · rw [List.mem_singleton.mp is_new]
        exact Nat.lt_succ_self _
    · refine List.pairwise_append.mpr ⟨kept.sorted, List.pairwise_singleton _ _,
        fun u listed v is_new => ?_⟩
      rw [List.mem_singleton.mp is_new]
      exact kept.given _ (List.mem_append_right _ (List.mem_map_of_mem listed))
  · exact ⟨kept.once, fun n listed => later n (kept.given n listed), kept.sorted, inv.ordered,
      inv.sizes⟩

theorem Inv.confirm (inv : w.Inv) (r : Request) : (w.confirm r).Inv :=
  inv.narrow (w.confirm r).bot (unconfirmed_sublist r.offset) rfl inv.sizes

theorem Inv.poll (inv : w.Inv) (call : Nat) (r : Request) : (w.poll call r).Inv := by
  have kept := inv.confirm r
  rw [World.poll]
  split
  · refine kept.narrow { (w.confirm r).bot with waiters := (w.confirm r).bot.waiters ++ [call] }
      (List.Sublist.refl _) rfl fun other waiting held => ?_
    by_cases same : other = call
    · subst same
      rw [Function.update_self] at held
      cases held
      exact r.size_pos
    · rw [Function.update_of_ne same] at held
      exact inv.sizes other waiting held
  · exact kept.answer _ _

theorem Inv.wake (inv : w.Inv) (call : Nat) (waiting : Waiting) : (w.wake call waiting).Inv := by
  rw [World.wake]
  refine Inv.answer (inv.narrow { w.bot with waiters := w.bot.waiters.erase call }
    (List.Sublist.refl _) rfl fun other held there => ?_) _ _
  by_cases same : other = call
  · subst same
    rw [Function.update_self] at there
    cases there
  · rw [Function.update_of_ne same] at there
    exact inv.sizes other held there

theorem inv_step {e : Event} {t : World} (inv : w.Inv) (happens : w.step e = some t) : t.Inv := by
  cases e with
  | enqueue now type payload =>
    cases happens
    exact inv.enqueue now type payload
  | poll call request =>
    cases free : w.calls call with
    | none =>
      simp only [step, free, Option.some.injEq] at happens
      exact happens ▸ inv.poll call request
    | some waiting => simp [step, free] at happens
  | wake call =>
    obtain ⟨waiting, -, rfl⟩ := Option.map_eq_some_iff.mp happens
    exact inv.wake call waiting

/-! ### Offsets -/

/-- The answers respect the offsets of their calls. -/
def Respects (w : World) : Prop :=
  ∀ a ∈ w.answers, ∀ o ∈ a.offset, ∀ u ∈ a.updates, o ≤ u.updateId

theorem Inv.fine (inv : w.Inv) (respects : w.Respects) : w.Fine :=
  ⟨inv.once.sublist (List.sublist_append_left _ _), inv.ordered, respects⟩

theorem Respects.answer (respects : w.Respects) {offset : Option Int} {size : Nat}
    (first : ∀ o ∈ offset, ∀ u ∈ w.bot.updates.take size, o ≤ u.updateId) :
    (w.answer offset size).Respects := by
  intro a listed o given u among
  rcases List.mem_append.mp listed with before | is_last
  · exact respects a before o given u among
  · rw [List.mem_singleton.mp is_last] at given among
    obtain ⟨v, taken, rfl⟩ := List.mem_map.mp among
    exact first o given v taken

theorem Inv.above_head (inv : w.Inv) {o : Int}
    (head : ∀ u ∈ w.bot.updates.head?, o ≤ u.updateId) : ∀ u ∈ w.bot.updates, o ≤ u.updateId := by
  have sorted := inv.sorted
  cases held : w.bot.updates with
  | nil => exact fun u listed => absurd listed List.not_mem_nil
  | cons first rest =>
    rw [held] at sorted head
    have least := head first rfl
    intro u listed
    rcases List.mem_cons.mp listed with rfl | later
    · exact least
    · have := (List.pairwise_cons.mp sorted).1 u later
      omega

theorem respects_step {e : Event} {t : World} (inv : w.Inv) (respects : w.Respects)
    (reaches : w.Reaches e) (happens : w.step e = some t) : t.Respects := by
  cases e with
  | enqueue now type payload =>
    cases happens
    exact respects
  | poll call request =>
    cases free : w.calls call with
    | some waiting => simp [step, free] at happens
    | none =>
      simp only [step, free, Option.some.injEq] at happens
      subst happens
      rw [World.poll]
      split
      · exact respects
      · refine Respects.answer (w := w.confirm request) respects fun o given u taken => ?_
        have kept := (List.mem_filter.mp (List.mem_of_mem_take taken)).2
        rw [Option.mem_def.mp given] at kept
        exact decide_eq_true_iff.mp kept
  | wake call =>
    obtain ⟨waiting, here, rfl⟩ := Option.map_eq_some_iff.mp happens
    refine Respects.answer (fun a listed => respects a listed) fun o given u taken => ?_
    exact inv.above_head (reaches waiting here o given) u (List.mem_of_mem_take taken)

theorem breaks_step {e : Event} {t : World} (inv : w.Inv) (misses : ¬ w.Reaches e)
    (happens : w.step e = some t) : ¬ t.Fine := by
  intro fine
  refine misses ?_
  cases e with
  | enqueue now type payload => trivial
  | poll call request => trivial
  | wake call =>
    intro waiting here o given u head
    obtain ⟨other, there, rfl⟩ := Option.map_eq_some_iff.mp happens
    obtain rfl := Option.some.inj (here.symm.trans there)
    obtain ⟨rest, held⟩ := List.head?_eq_some_iff.mp head
    have taken : u ∈ w.bot.updates.take waiting.size := by
      obtain ⟨n, size⟩ := Nat.exists_eq_succ_of_ne_zero
        (Nat.ne_of_gt (inv.sizes call waiting here))
      rw [held, size, List.take_succ_cons]
      exact List.mem_cons_self
    exact fine.offsets _ (List.mem_append_right _ (List.mem_singleton.mpr rfl)) o given
      (publicUpdate u) (List.mem_map_of_mem taken)

/-! ### Stored updates are returned -/

theorem returned_or_nearer (inv : w.Inv) {u : Update} (stored : u ∈ w.bot.updates)
    (offset : Option Int) {size : Nat} (some_asked : 0 < size) :
    (∃ a, (w.answer offset size).answers = w.answers ++ [a] ∧ publicUpdate u ∈ a.updates) ∨
      u ∈ (w.answer offset size).bot.updates ∧ (w.answer offset size).older u + 1 ≤ w.older u := by
  have parted := stored
  rw [← List.take_append_drop size w.bot.updates] at parted
  rcases List.mem_append.mp parted with taken | left
  · exact .inl ⟨_, rfl, List.mem_map_of_mem taken⟩
  · refine .inr ⟨left, ?_⟩
    have some_taken : w.bot.updates.take size ≠ [] := by
      rw [Ne, List.take_eq_nil_iff]
      rintro (none_asked | nothing)
      · omega
      · rw [nothing] at stored
        cases stored
    obtain ⟨first, taken⟩ := List.exists_mem_of_ne_nil _ some_taken
    have sorted := inv.sorted
    rw [← List.take_append_drop size w.bot.updates] at sorted
    have nearer := (List.pairwise_append.mp sorted).2.2 first taken u left
    have counted : 0 < (w.bot.updates.take size).countP
        fun v => decide (v.updateId < u.updateId) :=
      List.countP_pos_iff.mpr ⟨first, taken, decide_eq_true nearer⟩
    have whole : w.older u = (w.bot.updates.take size).countP
        (fun v => decide (v.updateId < u.updateId)) + (w.answer offset size).older u := by
      rw [older, ← List.take_append_drop size w.bot.updates, List.countP_append,
        List.take_append_drop]
      rfl
    omega

/-- What a step does to an update that lasts: it is returned, or it stays stored, and there are no
more updates before it, and fewer after a poll. -/
theorem step_returns {e : Event} {t : World} (inv : w.Inv) {u : Update}
    (stored : u ∈ w.bot.updates) (lasts : w.Lasts u e) (happens : w.step e = some t) :
    (∃ a, t.answers = w.answers ++ [a] ∧ publicUpdate u ∈ a.updates) ∨
      (u ∈ t.bot.updates ∧ w.answers <+: t.answers ∧
        t.older u + [e].countP Event.isPoll ≤ w.older u) := by
  cases e with
  | enqueue now type payload =>
    cases happens
    have fewer : (w.bot.unpruned now).countP (fun v => decide (v.updateId < u.updateId)) ≤
        w.older u := (unpruned_sublist w.bot now).countP_le
    have before : u.updateId < w.bot.nextUpdateId :=
      inv.given _ (List.mem_append_right _ (List.mem_map_of_mem stored))
    rw [BotUpdatesState.enqueueUpdate]
    dsimp only
    split
    · refine .inr ⟨List.mem_append_left _ lasts, List.prefix_refl _, ?_⟩
      rw [older, List.countP_append, List.countP_singleton,
        decide_eq_false (Nat.not_lt.mpr (Nat.le_of_lt before))]
      exact fewer
    · exact .inr ⟨lasts, List.prefix_refl _, fewer⟩
  | poll call request =>
    cases free : w.calls call with
    | some waiting => simp [step, free] at happens
    | none =>
      simp only [step, free, Option.some.injEq] at happens
      subst happens
      have kept : u ∈ (w.confirm request).bot.updates :=
        List.mem_filter.mpr ⟨stored, by
          cases given : request.offset with
          | none => rfl
          | some o => exact decide_eq_true (lasts o given)⟩
      have fewer : (w.confirm request).older u ≤ w.older u :=
        (unconfirmed_sublist request.offset).countP_le
      have some_stored : (w.confirm request).bot.updates.isEmpty = false := by
        rw [List.isEmpty_eq_false_iff]
        exact List.ne_nil_of_mem kept
      rw [World.poll]
      dsimp only
      rw [some_stored, Bool.false_and, if_neg (by decide)]
      rcases returned_or_nearer (inv.confirm request) kept request.offset request.size_pos with
        returned | ⟨stays, nearer⟩
      · exact .inl returned
      · exact .inr ⟨stays, List.prefix_append _ _, nearer.trans fewer⟩
  | wake call =>
    obtain ⟨waiting, here, rfl⟩ := Option.map_eq_some_iff.mp happens
    have resumed := inv.narrow { w.bot with waiters := w.bot.waiters.erase call }
      (List.Sublist.refl _) rfl inv.sizes
    rcases returned_or_nearer resumed stored waiting.offset (inv.sizes call waiting here) with
      returned | ⟨stays, nearer⟩
    · exact .inl returned
    · exact .inr ⟨stays, List.prefix_append _ _, (Nat.le_succ _).trans nearer⟩

theorem answers_step {e : Event} {t : World} (happens : w.step e = some t) :
    w.answers <+: t.answers := by
  cases e with
  | enqueue now type payload =>
    cases happens
    exact List.prefix_refl _
  | poll call request =>
    cases free : w.calls call with
    | some waiting => simp [step, free] at happens
    | none =>
      simp only [step, free, Option.some.injEq] at happens
      subst happens
      rw [World.poll]
      dsimp only
      split
      · exact List.prefix_refl _
      · exact List.prefix_append _ _
  | wake call =>
    obtain ⟨waiting, -, rfl⟩ := Option.map_eq_some_iff.mp happens
    exact List.prefix_append _ _

theorem answers_run {es : List Event} {s t : World} (run : runFrom step s es = some t) :
    s.answers <+: t.answers :=
  run_invariant_all
    (fun m _ _ (before : s.answers <+: m.answers) happens => before.trans (answers_step happens))
    (List.prefix_refl _) run

theorem run_returns {es : List Event} {s t : World} (inv : s.Inv) {u : Update}
    (stored : u ∈ s.bot.updates) (lasts : StepsMeet step (fun w => w.Lasts u) s es)
    (run : runFrom step s es = some t) (polls : s.older u < es.countP Event.isPoll) :
    ∃ later, t.answers = s.answers ++ later ∧ ∃ a ∈ later, publicUpdate u ∈ a.updates := by
  induction es generalizing s with
  | nil => exact absurd polls (Nat.not_lt_zero _)
  | cons e es ih =>
    obtain ⟨m, happens, rest⟩ := runFrom_cons_some.mp run
    obtain ⟨here, afterwards⟩ := (stepsMeet_cons happens).mp lasts
    rcases step_returns inv stored here happens with ⟨a, grown, returned⟩ | ⟨stays, grown, nearer⟩
    · obtain ⟨later, whole⟩ := answers_run rest
      refine ⟨a :: later, ?_, a, List.mem_cons_self, returned⟩
      rw [← whole, grown, List.append_assoc, List.singleton_append]
    · rw [List.countP_cons] at polls
      rw [List.countP_singleton] at nearer
      obtain ⟨later, whole, a, among, returned⟩ := ih (inv_step inv happens) stays afterwards rest
        (by omega)
      obtain ⟨between, joined⟩ := grown
      refine ⟨between ++ later, ?_, a, List.mem_append_right _ among, returned⟩
      rw [whole, ← joined, List.append_assoc]

end World

/-- What is promised of a run of polls and updates holds if and only if no poll that has waited goes
on when an update below its offset is stored. -/
theorem getUpdates_delivers_iff {es : List Event} {t : World}
    (run : runFrom World.step World.start es = some t) :
    Delivers es ↔ StepsMeet World.step World.Reaches World.start es := by
  have along : HoldsAlong World.step World.Fine World.start es ↔
      StepsMeet World.step World.Reaches World.start es :=
    holdsAlong_iff_stepsMeet
      (fun w (holds : w.Inv ∧ w.Respects) => holds.1.fine holds.2)
      (fun w e m holds reaches happens =>
        ⟨World.inv_step holds.1 happens, World.respects_step holds.1 holds.2 reaches happens⟩)
      (fun w e m holds misses happens => World.breaks_step holds.1 misses happens)
      ⟨World.inv_start, fun a listed => absurd listed List.not_mem_nil⟩ run
  rw [← along]
  refine ⟨fun delivers => delivers.fine, fun fine => ⟨fine, ?_⟩⟩
  intro before after s m u _ first stored lasts rest polls
  exact World.run_returns
    (run_invariant_all (fun _ _ _ inv happens => World.inv_step inv happens) World.inv_start first)
    stored lasts rest polls

/-- A poll waits for an offset, and an update arrives. -/
def waited (offset : Int) : List Event :=
  [.poll 0 ⟨some offset, 100, 30, none⟩, .enqueue 5 .message "hello", .wake 0]

theorem waited_delivers : Delivers (waited 1) ↔
    StepsMeet World.step World.Reaches World.start (waited 1) :=
  getUpdates_delivers_iff (t := ((runFrom World.step World.start (waited 1)).get (by decide))) (by
    rw [Option.some_get])

/-- A poll from far beyond the next identifier returns the first update that arrives. -/
theorem below_offset : ¬ ∀ (es : List Event) (t : World),
    runFrom World.step World.start es = some t → Delivers es := by
  intro all
  have delivers := all (waited 7) _ rfl
  have fine := delivers.fine (waited 7) _ (List.prefix_refl _) rfl
  have above := fine.offsets ⟨some 7, [⟨1, .message, "hello"⟩]⟩ (by decide) 7 rfl
    ⟨1, .message, "hello"⟩ (by decide)
  exact absurd above (by decide)

end Piltover.BotApi.Polling
