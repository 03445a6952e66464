/- source: piltover/app/handlers/group_calls.py, piltover/app/utils/group_calls.py,
     piltover/db/models/group_call.py
   digest: What a turn leaves of the calls, of who is in them and of what other requests know. -/

import Piltover.GroupCalls.Versions

set_option autoImplicit false

namespace Piltover.GroupCalls.Lifecycle

open Piltover.Foundation
open Piltover.Foundation.Runs
open Piltover.Foundation.Interleaved

/-- A request writes to calls that are as it has loaded them, and nobody enters a call that another
request is about to discard. -/
def Careful (w : Calls) : Happening → Prop
  | .go n _ => ∀ t, w.calls n = some t → ready w.shared.db t = true ∧
      ∀ callId, enters t = some callId → ∀ m s, w.calls m = some s → closes s ≠ some callId
  | _ => True

/-- A call is discarded by request where nobody is in it. -/
def Vacant (w : Calls) : Happening → Prop
  | .go n _ => ∀ call refusal, w.calls n = some (.managing call refusal .discard) →
      Management.discard.check call refusal = .ok () → w.shared.db.present call.id = []
  | _ => True

/-- A request is about to dismiss those who are in a call that it has discarded. -/
def Clearing (w : Calls) (callId : Nat) : Prop := ∃ n, w.calls n = some (.clearing callId)

/-- A chat has one active call at most; nobody is in a call that is discarded, or is about to be
dismissed; and versions of a call go up. -/
structure Proper (w : Calls) : Prop where
  active : ∀ chat, ∃ found, w.shared.db.getActive chat = .ok found
  empty : ∀ call ∈ w.shared.db.calls, call.discardedAt ≠ none →
    w.shared.db.present call.id = [] ∨ Clearing w call.id
  versions : w.shared.changes.Pairwise fun a b => a.callId = b.callId → a.version < b.version

/-- Nobody is in a call that is discarded. -/
def NobodyLeft (w : Calls) : Prop :=
  ∀ call ∈ w.shared.db.calls, call.discardedAt ≠ none → w.shared.db.present call.id = []

/-- A call that is discarded stays so, and is neither started nor joined; and versions are above
those before. -/
structure Lawful (w w' : Calls) : Prop where
  closed : ∀ call ∈ w.shared.db.calls, call.discardedAt ≠ none →
    (∃ call' ∈ w'.shared.db.calls, call'.id = call.id ∧ call'.discardedAt ≠ none ∧
      call'.startedAt = call.startedAt) ∧
    ∀ p ∈ w'.shared.db.present call.id, ∃ q ∈ w.shared.db.present call.id, q.id = p.id
  versions : ∃ more, w'.shared.changes = w.shared.changes ++ more ∧
    ∀ a ∈ more, ∀ call ∈ w.shared.db.calls, call.id = a.callId → call.version < a.version

/-- A request that discards a call as empty does so while nobody is in it. -/
def EmptyOnly (w : Calls) (e : Happening) (_ : Calls) : Prop :=
  ∀ n now v, e = .go n now → w.calls n = some (.visit v) → v.stage = .discarding →
    w.shared.db.present v.call.id = []

/-- Nothing is under way, no chat has two active calls, nobody is in a call that is discarded, and
the versions so far are those of the calls or below. -/
structure Begins (w : Calls) : Prop where
  idle : w.Idle
  active : ∀ c ∈ w.shared.db.calls, ∀ d ∈ w.shared.db.calls,
    c.discardedAt = none → d.discardedAt = none → c.chat = d.chat → c = d
  empty : NobodyLeft w
  recorded : Recorded w.shared

/-! ### What is true between turns -/

/-- The participants that a request is going to dismiss. -/
def dismissed : Pending → List Nat
  | .committing _ (some (_, ids)) => ids
  | _ => []

/-- What a request under way has found out, and what is still true of it. -/
structure Knows (db : Db) (t : Pending) : Prop where
  loaded : ∀ copy, copyOf t = some copy → Loaded db copy
  chat : ∀ c active, (t = .dismissing c active ∨ ∃ ids, t = .committing c (some (active, ids))) →
    ∃ row, db.calls.get active.id = some row ∧ row.chat = c.chat
  closing : ∀ callId, closes t = some callId → ∀ p ∈ db.present callId, p.id ∈ dismissed t

structure Sound (w : Calls) : Prop where
  fits : ∀ n t, w.calls n = some t → t.Fits w.shared.db
  knows : ∀ n t, w.calls n = some t → Knows w.shared.db t
  active : ∀ c ∈ w.shared.db.calls, ∀ d ∈ w.shared.db.calls,
    c.discardedAt = none → d.discardedAt = none → c.chat = d.chat → c = d
  empty : ∀ call ∈ w.shared.db.calls, call.discardedAt ≠ none →
    w.shared.db.present call.id = [] ∨ Clearing w call.id
  recorded : Recorded w.shared

section Present

variable {env : Env} {hall : Hall} {t : Pending} {now : Int} {db db' : Db}
  {p : GroupCallParticipant} {callId : Nat}

theorem mem_present : p ∈ db.present callId ↔
    p ∈ db.participants.table ∧ p.groupCallId = callId ∧ p.left = false := by
  simp only [Db.present, Participants.inCall, List.mem_filter, Table.mem_def, beq_iff_eq,
    Bool.not_eq_true', and_assoc]

theorem present_of_same (same : db'.participants = db.participants) :
    db'.present callId = db.present callId := by
  rw [Db.present, same]
  rfl

theorem present_of_touches (touches : Touches db t db') (fits : t.Fits db)
    (here : p ∈ db'.present callId) :
    enters t = some callId ∨ ∃ q ∈ db.present callId, q.id = p.id := by
  obtain ⟨there, inCall, still⟩ := mem_present.mp here
  cases touches with
  | nothing same =>
    rw [present_of_same same] at here
    exact .inr ⟨p, here, rfl⟩
  | dismissed which same =>
    rw [same] at there
    obtain ⟨q, old, rfl⟩ := Participants.mem_dismiss.mp there
    split at still
    · cases still
    · rename_i kept
      rw [if_neg kept] at inCall ⊢
      exact .inr ⟨q, mem_present.mpr ⟨old, inCall, still⟩, rfl⟩
  | created v r joinAs source turn stage made =>
    obtain ⟨fresh, table⟩ := Participants.create_eq_some made
    rw [table, Table.mem_insert fresh] at there
    rcases there with old | rfl
    · exact .inr ⟨p, mem_present.mpr ⟨old, inCall, still⟩, rfl⟩
    · obtain ⟨userId, call, _⟩ := v
      obtain rfl := stage
      subst turn
      exact .inl (congrArg some inCall)
  | saved v d leaves turn stage saved =>
    obtain ⟨userId, call, _⟩ := v
    obtain rfl := stage
    subst turn
    obtain ⟨has, own⟩ : db.Has d.mem ∧ d.mem.groupCallId = call.id := fits
    rw [Participants.save_eq_some saved] at there
    obtain ⟨q, old, rfl⟩ := Participants.mem_write.mp there
    by_cases named : q.id = d.mem.id
    · rw [if_pos (beq_iff_eq.mpr named)] at inCall still ⊢
      have member := has.eq_of_id old named
      by_cases listed : Field.left ∈ d.fields
      · have back : d.mem.left = false := by
          rw [merge, if_pos listed] at still
          exact still
        refine .inl ?_
        have returns : returns d = true := by
          rw [Lifecycle.returns, back, Bool.and_eq_true]
          exact ⟨List.contains_iff_mem.mpr listed, rfl⟩
        rw [enters, if_pos returns, ← own]
        exact congrArg some ((congrArg Prod.fst member).symm.trans inCall)
      · have back : q.left = false := by
          rw [merge, if_neg listed] at still
          exact still
        exact .inr ⟨q, mem_present.mpr ⟨old, inCall, back⟩, rfl⟩
    · rw [if_neg (by simpa using named)] at inCall still ⊢
      exact .inr ⟨q, mem_present.mpr ⟨old, inCall, still⟩, rfl⟩

theorem opened_of_enters (safe : ready db t = true) (entering : enters t = some callId) :
    opened db callId = true := by
  cases t with
  | visit v =>
    obtain ⟨userId, call, stage⟩ := v
    cases stage with
    | creating r joinAs source =>
      cases entering
      exact safe
    | saving d leaves =>
      rw [enters] at entering
      split at entering
      · rename_i back
        cases entering
        rw [ready, back] at safe
        exact safe
      · cases entering
    | _ => cases entering
  | _ => cases entering

theorem not_discarded_of_opened {call : GroupCall} (open' : opened db call.id = true)
    (here : call ∈ db.calls) : call.discardedAt = none := by
  rw [opened, Table.mem_iff_get.mp here] at open'
  exact Option.isNone_iff_eq_none.mp open'

theorem present_committed {c : Creation} {active : GroupCall} {ids : List Nat}
    (here : p ∈ (c.commit hall (some (active, ids)) now).1.db.present callId) :
    p.id ∉ ids ∧ p ∈ hall.db.present callId := by
  obtain ⟨there, inCall, still⟩ := mem_present.mp here
  obtain ⟨q, old, rfl⟩ : ∃ q ∈ hall.db.participants.table,
      (if ids.contains q.id then q.gone else q) = p := Participants.mem_dismiss.mp there
  split at still
  · cases still
  · rename_i kept
    rw [if_neg kept] at inCall ⊢
    exact ⟨fun listed => kept (List.contains_iff_mem.mpr listed),
      mem_present.mpr ⟨old, inCall, still⟩⟩

theorem present_cleared (env : Env) (now : Int)
    (here : p ∈ ((Pending.clearing callId).advance env hall now).1.db.present callId) : False := by
  obtain ⟨there, inCall, still⟩ := mem_present.mp here
  obtain ⟨q, old, rfl⟩ : ∃ q ∈ hall.db.participants.table,
      (if q.groupCallId == callId && !q.left then q.gone else q) = p :=
    Participants.mem_dismiss.mp there
  split at still
  · cases still
  · rename_i kept
    rw [if_neg kept] at inCall
    rw [inCall, still, beq_self_eq_true] at kept
    exact kept rfl

end Present

def OneActive (db : Db) : Prop :=
  ∀ c ∈ db.calls, ∀ d ∈ db.calls, c.discardedAt = none → d.discardedAt = none → c.chat = d.chat →
    c = d

section Calls

variable {hall : Hall} {t : Pending} {result : Hall × Option Pending} {now : Int} {db db' : Db}

theorem oneActive_of_modify (write : GroupCall → GroupCall) (keeps : ∀ c, (write c).id = c.id)
    {k : Nat} (one : OneActive db) (chat : ∀ c, (write c).chat = c.chat)
    (closes : ∀ c, (write c).discardedAt = none → c.discardedAt = none)
    (same : db'.calls = db.calls.modify (fun c => c.id == k) write keeps) : OneActive db' := by
  have before : ∀ c ∈ db'.calls, c.discardedAt = none → ∃ s ∈ db.calls, s.discardedAt = none ∧
      s.chat = c.chat ∧ (if s.id == k then write s else s) = c := by
    intro c here still
    rw [same] at here
    obtain ⟨s, there, rfl⟩ := Table.mem_modify.mp here
    refine ⟨s, there, ?_, ?_, rfl⟩
    · split at still
      · exact closes s still
      · exact still
    · split
      · exact (chat s).symm
      · rfl
  intro c here d there open' open'' together
  obtain ⟨s, inTable, active, chat', rfl⟩ := before c here open'
  obtain ⟨u, inTable', active', chat'', rfl⟩ := before d there open''
  rw [one s inTable u inTable' active active' (chat'.trans (together.trans chat''.symm))]

theorem oneActive_of_insert {call : GroupCall} (one : OneActive db)
    (fresh : db.calls.get call.id = none)
    (alone : ∀ c ∈ db.calls, c.discardedAt = none → c.chat ≠ call.chat)
    (same : db'.calls = db.calls.insert call) : OneActive db' := by
  intro c here d there open' open'' together
  rw [same, Table.mem_insert fresh] at here there
  rcases here with old | rfl <;> rcases there with old' | rfl
  · exact one c old d old' open' open'' together
  · exact absurd together (alone c old open')
  · exact absurd together.symm (alone d old' open'')
  · rfl

theorem oneActive_commit {c : Creation} {active : Option (GroupCall × List Nat)}
    (one : OneActive hall.db) (knows : Knows hall.db (.committing c active))
    (safe : ready hall.db (.committing c active) = true) :
    OneActive (c.commit hall active now).1.db := by
  cases active with
  | none =>
    refine oneActive_of_insert one hall.db.calls.get_nextKey (fun call here still chat => ?_) rfl
    have free := List.any_eq_false.mp ((Bool.not_eq_true' _).mp safe) call (Table.mem_def.mp here)
    exact free (Bool.and_eq_true_iff.mpr ⟨beq_iff_eq.mpr chat, Option.isNone_iff_eq_none.mpr still⟩)
  | some found =>
    obtain ⟨active, ids⟩ := found
    obtain ⟨row, got, -, open'⟩ := (knows.loaded active rfl).exists_row safe
    obtain ⟨row', got', chat⟩ := knows.chat c active (.inr ⟨ids, rfl⟩)
    cases got.symm.trans got'
    obtain ⟨here, named⟩ := Table.get_eq_some_iff.mp got
    have closed : OneActive (hall.closeActive now (some (active, ids))).db :=
      oneActive_of_modify (·.discardedFrom active now) (fun _ => rfl) one (fun _ => rfl)
        (fun _ still => (by cases still)) rfl
    refine oneActive_of_insert closed (Table.get_nextKey _) (fun call there still chat' => ?_) rfl
    obtain ⟨s, old, rfl⟩ : ∃ s ∈ hall.db.calls,
        (if s.id == active.id then s.discardedFrom active now else s) = call :=
      List.mem_map.mp there
    split at still
    · cases still
    · rename_i other
      rw [if_neg other] at chat'
      obtain rfl := one s old row here still open' (chat'.trans chat.symm)
      exact other (beq_iff_eq.mpr named)

theorem oneActive_of_effect (effect : Effect hall t result) (one : OneActive hall.db)
    (knows : Knows hall.db t) (safe : ready hall.db t = true) : OneActive result.1.db := by
  cases effect with
  | nothing calls changes =>
    unfold OneActive
    rw [calls]
    exact one
  | allocated call calls changes =>
    exact oneActive_of_modify (fun c => { c with nextSource := call.nextSource + 1 })
      (fun _ => rfl) one (fun _ => rfl) (fun _ still => still) calls
  | written copy write writes known fresh discards calls changes =>
    exact oneActive_of_modify write writes.id one writes.chat writes.closes calls
  | committed c active now turn done =>
    subst turn done
    exact oneActive_commit one knows safe

theorem discards_of_effect {k : Nat} {row row' : GroupCall} (effect : Effect hall t result)
    (got : hall.db.calls.get k = some row) (open' : row.discardedAt = none)
    (got' : result.1.db.calls.get k = some row') (closed : row'.discardedAt ≠ none) :
    closes t = some k ∨ ∃ copy refusal, t = .managing copy refusal .discard ∧
      Management.discard.check copy refusal = .ok () ∧ copy.id = k ∧
      result.2 = some (.clearing k) := by
  cases effect with
  | nothing calls changes =>
    rw [calls, got] at got'
    cases got'
    exact absurd open' closed
  | allocated call calls changes =>
    have modified := Table.get_modify_key hall.db.calls
      (fun c => { c with nextSource := call.nextSource + 1 }) (fun _ => rfl) call.id k
    rw [calls] at got'
    rw [got] at modified
    split at modified
    · cases got'.symm.trans modified
      exact absurd open' closed
    · cases got'.symm.trans modified
      exact absurd open' closed
  | written copy write writes known fresh discards calls changes =>
    rw [calls, Table.get_modify_key, got] at got'
    split at got'
    · rename_i own
      subst own
      cases got'
      rcases discards with stays | found | ⟨refusal, turn, checked, next⟩
      · exact absurd ((stays row).trans open') closed
      · exact .inl found
      · exact .inr ⟨copy, refusal, turn, checked, rfl, next⟩
    · cases got'
      exact absurd open' closed
  | committed c active now turn done =>
    subst turn done
    have added : ∀ calls : Table GroupCall.id, calls.get k = some row →
        (calls.insert (c.call calls.nextKey now)).get k = some row := by
      intro calls known
      rw [Table.get_insert calls.get_nextKey, if_neg ?_]
      · exact known
      · intro same
        have fresh := calls.get_nextKey
        rw [show calls.nextKey = k from same, known] at fresh
        cases fresh
    cases active with
    | none =>
      cases got'.symm.trans (added hall.db.calls got)
      exact absurd open' closed
    | some found =>
      obtain ⟨active, ids⟩ := found
      by_cases own : active.id = k
      · exact .inl (congrArg some own)
      · have modified := Table.get_modify_key hall.db.calls (·.discardedFrom active now)
          (fun _ => rfl) active.id k
        rw [if_neg own, got] at modified
        cases got'.symm.trans (added _ modified)
        exact absurd open' closed

theorem not_new_of_effect {call' : GroupCall} (effect : Effect hall t result)
    (here : call' ∈ result.1.db.calls) (closed : call'.discardedAt ≠ none) :
    hall.db.calls.get call'.id ≠ none := by
  have modified : ∀ (write : GroupCall → GroupCall) (keeps : ∀ c, (write c).id = c.id) (k : Nat),
      call' ∈ hall.db.calls.modify (fun c => c.id == k) write keeps →
        hall.db.calls.get call'.id ≠ none := by
    intro write keeps k listed
    obtain ⟨s, old, rfl⟩ := Table.mem_modify.mp listed
    have named : (if s.id == k then write s else s).id = s.id := by
      split
      · exact keeps s
      · rfl
    rw [named, Table.mem_iff_get.mp old]
    exact Option.some_ne_none s
  cases effect with
  | nothing calls changes =>
    rw [calls] at here
    rw [Table.mem_iff_get.mp here]
    exact Option.some_ne_none call'
  | allocated call calls changes =>
    rw [calls] at here
    exact modified (fun c => { c with nextSource := call.nextSource + 1 }) (fun _ => rfl) call.id here
  | written copy write writes known fresh discards calls changes =>
    rw [calls] at here
    exact modified write writes.id copy.id here
  | committed c active now turn done =>
    subst turn done
    let before := (hall.closeActive now active).db.calls
    have here : call' ∈ before.insert (c.call before.nextKey now) := here
    rcases (Table.mem_insert (Table.get_nextKey before)).mp here with old | rfl
    · cases active with
      | none =>
        have old : call' ∈ hall.db.calls := old
        rw [Table.mem_iff_get.mp old]
        exact Option.some_ne_none call'
      | some found => exact modified (·.discardedFrom found.1 now) (fun _ => rfl) found.1.id old
    · exact absurd rfl closed

end Calls

/-! ### What a request knows after a turn -/

section Knowledge

variable {env : Env} {hall : Hall} {t next : Pending} {now : Int} {db db' : Db}

theorem knows_of_none (copy : copyOf t = none) : Knows db t := by
  have apart : closes t = none ∧ ∀ c active, t ≠ .dismissing c active ∧
      ∀ ids, t ≠ .committing c (some (active, ids)) := by
    cases t with
    | visit v => cases copy
    | managing call refusal m => cases copy
    | clearing callId =>
      exact ⟨rfl, fun _ _ => ⟨Pending.noConfusion, fun _ => Pending.noConfusion⟩⟩
    | opening c => exact ⟨rfl, fun _ _ => ⟨Pending.noConfusion, fun _ => Pending.noConfusion⟩⟩
    | dismissing c active => cases copy
    | committing c active =>
      cases active with
      | none => exact ⟨rfl, fun _ _ => ⟨Pending.noConfusion, fun _ same => (by cases same)⟩⟩
      | some found => cases copy
  refine ⟨fun c known => ?_, fun c active shape => ?_, fun callId closing => ?_⟩
  · rw [copy] at known
    cases known
  · rcases shape with same | ⟨ids, same⟩
    · exact absurd same (apart.2 c active).1
    · exact absurd same ((apart.2 c active).2 ids)
  · rw [apart.1] at closing
    cases closing

theorem knows_visit {v : Visit} (loaded : Loaded db v.call) (apart : v.stage ≠ .discarding) :
    Knows db (.visit v) := by
  refine ⟨fun copy known => ?_, fun c active shape => ?_, fun callId closing => ?_⟩
  · cases known
    exact loaded
  · rcases shape with same | ⟨ids, same⟩ <;> cases same
  · obtain ⟨userId, call, stage⟩ := v
    cases stage with
    | discarding => exact absurd rfl apart
    | _ => cases closing

theorem knows_managing {call : GroupCall} {refusal : Option Failure} {m : Management}
    (loaded : Loaded db call) : Knows db (.managing call refusal m) := by
  refine ⟨fun copy known => ?_, fun c active shape => ?_, fun callId closing => (by cases closing)⟩
  · cases known
    exact loaded
  · rcases shape with same | ⟨ids, same⟩ <;> cases same

theorem Knows.kept (knows : Knows db t) (grows : Grows db db')
    (present : ∀ callId, closes t = some callId → ∀ p ∈ db'.present callId,
      ∃ q ∈ db.present callId, q.id = p.id) : Knows db' t := by
  refine ⟨fun copy known => (knows.loaded copy known).grows grows, fun c active shape => ?_,
    fun callId closing p here => ?_⟩
  · obtain ⟨row, got, chat⟩ := knows.chat c active shape
    obtain ⟨row', got', follows⟩ := grows active.id row got
    exact ⟨row', got', follows.chat.trans chat⟩
  · obtain ⟨q, before, same⟩ := present callId closing p here
    exact same ▸ knows.closing callId closing q before

theorem next_knows_visit {v : Visit} (knows : Knows hall.db (.visit v))
    (safe : ready hall.db (.visit v) = true)
    (goes : (v.advance env hall now).2 = some next) : Knows (v.advance env hall now).1.db next := by
  have loaded := knows.loaded v.call rfl
  have loaded' := loaded.grows (grows_of_effect (effect_visit safe env now) knows.loaded safe)
  obtain ⟨userId, call, stage⟩ := v
  -- but for the last two stages the call is known as before
  have same : ∀ s, s ≠ .discarding → next = .visit ⟨userId, call, s⟩ →
      Knows (Visit.advance env ⟨userId, call, stage⟩ hall now).1.db next := by
    rintro s apart rfl
    exact knows_visit loaded' apart
  cases stage with
  | requiring r =>
    simp only [Visit.advance] at goes
    split at goes
    · cases goes
    · cases goes
    · rename_i admitted
      cases goes
      refine same _ ?_ rfl
      rcases entry_eq_some admitted with ⟨seat, rfl, -⟩ | ⟨d, leaves, rfl, -⟩ <;>
        exact Stage.noConfusion
  | choosing seat =>
    simp only [Visit.advance] at goes
    split at goes
    · cases goes
    · cases goes
      refine same _ ?_ rfl
      split
      · exact Stage.noConfusion
      · cases seat <;> exact Stage.noConfusion
  | allocating seat source =>
    simp only [Visit.advance] at goes
    cases goes
    refine same _ ?_ rfl
    cases seat <;> exact Stage.noConfusion
  | looking r joinAs source =>
    simp only [Visit.advance] at goes
    split at goes
    · cases goes
    · rename_i looked
      cases goes
      refine same _ ?_ rfl
      rcases look_eq_ok looked with rfl | ⟨p, -, rfl⟩ <;> exact Stage.noConfusion
  | creating r joinAs source =>
    simp only [Visit.advance, Visit.create] at goes
    split at goes
    · cases goes
      exact same _ Stage.noConfusion rfl
    · cases goes
  | saving d leaves =>
    simp only [Visit.advance, Visit.save] at goes
    split at goes
    · cases goes
      exact same _ Stage.noConfusion rfl
    · cases goes
  | bumping leaves =>
    obtain ⟨row, got, -, open'⟩ := loaded.exists_row safe
    cases leaves with
    | false =>
      simp only [Visit.advance] at goes
      cases goes
    | true =>
      simp only [Visit.advance] at goes
      cases goes
      refine knows_visit ⟨{ row with
        version := call.version + 1, participantsVersion := call.version + 1 }, ?_,
        Nat.le_refl _, fun _ => open'⟩ Stage.noConfusion
      have bumped := Table.get_modify_key hall.db.calls (fun c => { c with
        version := call.version + 1, participantsVersion := call.version + 1 })
        (fun _ => rfl) call.id call.id
      rw [if_pos rfl, got] at bumped
      exact bumped
  | counting =>
    simp only [Visit.advance] at goes ⊢
    split at goes
    · rename_i empty
      cases goes
      rw [if_pos empty]
      refine ⟨fun copy known => ?_, fun c active shape => ?_, fun callId closing p here => ?_⟩
      · cases known
        exact loaded
      · rcases shape with same | ⟨ids, same⟩ <;> cases same
      · cases closing
        have nobody := List.isEmpty_iff.mp (Bool.and_eq_true_iff.mp empty).1
        exact absurd (nobody ▸ here) List.not_mem_nil
    · cases goes
  | discarding =>
    simp only [Visit.advance] at goes
    cases goes

theorem getActive_eq_some {chat : Nat} {active : GroupCall}
    (found : db.getActive chat = .ok (some active)) :
    active ∈ db.calls ∧ active.chat = chat ∧ active.discardedAt = none := by
  unfold Db.getActive at found
  split at found
  · cases found
  · rename_i call only
    cases found
    have listed : active ∈ db.calls.rows.filter fun c => c.chat == chat && c.discardedAt.isNone :=
      only ▸ List.mem_cons_self
    obtain ⟨here, fits⟩ := List.mem_filter.mp listed
    obtain ⟨own, open'⟩ := Bool.and_eq_true_iff.mp fits
    exact ⟨Table.mem_def.mpr here, beq_iff_eq.mp own, Option.isNone_iff_eq_none.mp open'⟩
  · cases found

theorem next_knows (knows : Knows hall.db t) (safe : ready hall.db t = true)
    (goes : (t.advance env hall now).2 = some next) : Knows (t.advance env hall now).1.db next := by
  cases t with
  | visit v => exact next_knows_visit knows safe goes
  | managing call refusal m =>
    simp only [Pending.advance] at goes
    split at goes
    · cases goes
    · split at goes
      · cases goes
        exact knows_of_none rfl
      · cases goes
  | clearing callId => cases goes
  | opening c =>
    simp only [Pending.advance] at goes ⊢
    split at goes
    · cases goes
    · cases goes
      exact knows_of_none rfl
    · rename_i active found
      cases goes
      obtain ⟨here, chat, open'⟩ := getActive_eq_some found
      have got := Table.mem_iff_get.mp here
      refine ⟨fun copy known => ?_, fun c' active' shape => ?_, fun _ closing => (by cases closing)⟩
      · cases known
        exact ⟨active, got, Nat.le_refl _, fun _ => open'⟩
      · rcases shape with same | ⟨ids, same⟩
        · cases same
          exact ⟨active, got, chat⟩
        · cases same
  | dismissing c active =>
    cases goes
    refine ⟨fun copy known => ?_, fun c' active' shape => ?_, fun callId closing p here => ?_⟩
    · cases known
      exact knows.loaded active rfl
    · rcases shape with same | ⟨ids, same⟩
      · cases same
      · cases same
        exact knows.chat c active (.inl rfl)
    · cases closing
      exact List.mem_map_of_mem here
  | committing c active => cases goes

end Knowledge

end Piltover.GroupCalls.Lifecycle
