/- source: piltover/app/handlers/updates.py, piltover/db/models/update.py
   digest: getDifference, and the rows that a client gets to see who polls it to the end. -/

import Piltover.Foundation.OrderedDict
import Piltover.Foundation.Paging
import Piltover.Foundation.Runs
import Piltover.Updates.Messages

set_option autoImplicit false

namespace Piltover.Updates

open Piltover.Foundation
open Piltover.Foundation.Runs

/-- `UpdateType`, as far as `get_difference` tells the types apart. -/
inductive UpdateType
  | messageEdit | newMessage | newAuthorization | other (value : Nat)
  deriving DecidableEq, Repr

/-- A row of `Update`. -/
structure Update where
  updateType : UpdateType
  pts : Int
  ptsCount : Int
  date : Int
  relatedId : Option Nat
  message : Option MessageRef
  deriving DecidableEq, Repr

def Update.messageId (update : Update) : Option Nat := update.message.map MessageRef.id

inductive SecretUpdateType
  | newMessage | historyRead
  deriving DecidableEq, Repr

structure SecretUpdate where
  id : Nat
  qts : Int
  type : SecretUpdateType
  deriving DecidableEq, Repr

/-- What the database has for a user and one of their authorizations: the rows of `Update`,
`State.pts` if there is a `State`, the rows of `SecretUpdate`, the counters of the authorization, and
for a date the channels with later updates. -/
structure UserUpdates where
  updates : List Update
  statePts : Option Int
  secretUpdates : List SecretUpdate
  updSeq : Nat
  updQts : Int
  channelStates : Int → List (Nat × Int)

/-- `GetDifference`; `GetDifference_133` is the same without `pts_limit`. -/
structure GetDifference where
  pts : Int
  ptsLimit : Option Int
  ptsTotalLimit : Option Int
  date : Int
  qts : Int

structure TLState where
  pts : Int
  qts : Int
  seq : Nat
  unreadCount : Nat
  deriving DecidableEq, Repr

/-- An element of `other_updates`; `υ` is what `Update.to_tl` returns. -/
inductive OtherUpdate (υ : Type)
  | update (tl : υ)
  | secret (update : SecretUpdate)
  | channelTooLong (channelId : Nat) (pts : Int)

structure Difference (υ : Type) where
  newMessages : List MessageToFormat
  newEncryptedMessages : List SecretUpdate
  otherUpdates : List (OtherUpdate υ)
  state : TLState

inductive DifferenceAnswer (υ : Type)
  | empty (seq : Nat)
  | tooLong (pts : Int)
  | difference (d : Difference υ)
  | slice (d : Difference υ)

/-- The authorization and the layer of a request. -/
structure RequestContext where
  authId : Nat
  layer : Nat

namespace UserUpdates

variable (db : UserUpdates)

def serverPts : Int := (db.updates.map Update.pts).max?.getD 0

def getStateInternal (pts : Option Int) : TLState :=
  ⟨pts.getD (db.statePts.getD 0), db.updQts, db.updSeq, 0⟩

/-- The date from which a channel has to be reported. -/
def sinceDate (request : GetDifference) : Int :=
  match ((db.updates.filter fun u => u.pts ≤ request.pts).insertionSort
      fun a b => b.pts ≤ a.pts).head? with
  | none => request.date
  | some update => update.date

def lastLocalSecretId (request : GetDifference) : Nat :=
  (((db.secretUpdates.filter fun u => u.qts ≤ request.qts).insertionSort
    fun a b => b.qts ≤ a.qts).head?.map SecretUpdate.id).getD 0

def newSecret (lastLocalSecretId : Nat) : List SecretUpdate :=
  db.secretUpdates.filter fun u => lastLocalSecretId < u.id

end UserUpdates

def GetDifference.maxPts (request : GetDifference) (serverPts : Int) : Int :=
  match request.ptsLimit with
  | none => serverPts
  | some limit => request.pts + limit

def UserUpdates.newUpdates (db : UserUpdates) (request : GetDifference) (serverPts : Int) :
    List Update :=
  Paging.page Update.pts db.updates request.pts (request.maxPts serverPts) 500

section Handler

variable {υ : Type} (toTl : Update → Option υ) (ctx : RequestContext)

def isEditOfNew (newUpdates : List Update) (update : Update) : Bool :=
  update.updateType == .messageEdit &&
    (newUpdates.filter fun u => u.updateType == .newMessage).any fun u =>
      u.messageId == update.messageId

/-- The authorization of the request itself, or any for a client that is too old for them. -/
def isOwnAuthorization (update : Update) : Bool :=
  update.updateType == .newAuthorization &&
    (update.relatedId == some ctx.authId || ctx.layer.blt 163)

/-- The updates that the loop over `new_updates` passes to `to_tl`. -/
def reported (newUpdates : List Update) : List Update :=
  newUpdates.filter fun u => !isEditOfNew newUpdates u && !isOwnAuthorization ctx u

/-- The body that `Difference` and `DifferenceSlice` share. -/
def differenceBody (newUpdates : List Update) (newSecret : List SecretUpdate)
    (channelStates : List (Nat × Int)) (state : TLState) : Difference υ :=
  let allMessages := OrderedDict.ofPairs
    ((toTlBulkMaybecached (newUpdates.filterMap Update.message)).map fun m => (m.id, m))
  { newMessages := newUpdates.filterMap fun u =>
      if u.updateType = .newMessage then u.messageId.bind fun id => allMessages.lookup id else none
    newEncryptedMessages := newSecret.filter fun u => u.type = .newMessage
    otherUpdates := (reported ctx newUpdates).filterMap (fun u => (toTl u).map .update) ++
      (newSecret.filter fun u => u.type ≠ .newMessage).map .secret ++
      channelStates.map fun channel => .channelTooLong channel.1 channel.2
    state := state }

/-- The test for `DifferenceTooLong`. -/
def GetDifference.IsTooLong (request : GetDifference) (serverPts : Int) : Prop :=
  ∃ limit ∈ request.ptsTotalLimit, request.pts + limit < serverPts

instance (request : GetDifference) (serverPts : Int) : Decidable (request.IsTooLong serverPts) :=
  inferInstanceAs (Decidable (∃ limit ∈ request.ptsTotalLimit, request.pts + limit < serverPts))

/-- `get_difference`. It reads `server_pts` with the date and the last secret update of the client,
then the rows, then the secret updates and the channels, and the state last: each time the database
as it is by then. -/
def getDifference (atStart atRows atSecret atEnd : UserUpdates) (request : GetDifference) :
    DifferenceAnswer υ :=
  let serverPts := atStart.serverPts
  if request.IsTooLong serverPts then .tooLong serverPts
  else
    let newUpdates := atRows.newUpdates request serverPts
    let newSecret := atSecret.newSecret (atStart.lastLocalSecretId request)
    let body := differenceBody toTl ctx newUpdates newSecret
      (atSecret.channelStates (atStart.sinceDate request))
    match newUpdates.getLast? with
    | none =>
      if newSecret = [] then .empty atEnd.updSeq
      else .difference (body (atEnd.getStateInternal none))
    | some last =>
      if serverPts ≤ last.pts then .difference (body (atEnd.getStateInternal none))
      else .slice (body (atEnd.getStateInternal (some last.pts)))

variable {toTl ctx} {atStart atRows atSecret atEnd : UserUpdates} {request : GetDifference}
  {d : Difference υ}

/-- The state of a final answer is `State.pts`, and its window reaches `server_pts`, or is empty
while there are secret updates. -/
theorem getDifference_difference
    (answered : getDifference toTl ctx atStart atRows atSecret atEnd request = .difference d) :
    d.state.pts = atEnd.statePts.getD 0 ∧
      (atRows.newUpdates request atStart.serverPts = [] ∧
          atSecret.newSecret (atStart.lastLocalSecretId request) ≠ [] ∨
        ∃ last, (atRows.newUpdates request atStart.serverPts).getLast? = some last ∧
          atStart.serverPts ≤ last.pts) := by
  simp only [getDifference] at answered
  split at answered
  · cases answered
  · split at answered
    · rename_i nothing
      split at answered
      · cases answered
      · rename_i secret
        cases answered
        exact ⟨rfl, .inl ⟨List.getLast?_eq_none_iff.mp nothing, secret⟩⟩
    · rename_i last ends
      split at answered
      · rename_i all
        cases answered
        exact ⟨rfl, .inr ⟨last, ends, all⟩⟩
      · cases answered

theorem getDifference_slice
    (answered : getDifference toTl ctx atStart atRows atSecret atEnd request = .slice d) :
    ∃ last, (atRows.newUpdates request atStart.serverPts).getLast? = some last ∧
      d.state.pts = last.pts := by
  simp only [getDifference] at answered
  split at answered
  · cases answered
  · split at answered
    · split at answered <;> cases answered
    · rename_i last ends
      split at answered
      · cases answered
      · cases answered
        exact ⟨last, ends, rfl⟩

theorem getDifference_empty {seq : Nat}
    (answered : getDifference toTl ctx atStart atRows atSecret atEnd request = .empty seq) :
    atRows.newUpdates request atStart.serverPts = [] := by
  simp only [getDifference] at answered
  split at answered
  · cases answered
  · split at answered
    · rename_i nothing
      exact List.getLast?_eq_none_iff.mp nothing
    · split at answered <;> cases answered

end Handler

/-- A client that polls: the pts it has got to, the windows of the answers so far, whether the last
answer was a final one, and whether it was `DifferenceEmpty`, after which the client stops. -/
structure Poll where
  pts : Int
  windows : List (List Update)
  final : Bool
  stopped : Bool

/-- What may differ from call to call. -/
structure PollCall where
  ptsLimit : Option Int
  date : Int
  qts : Int
  secretUpdates : List SecretUpdate

namespace Poll

def start (pts : Int) : Poll := ⟨pts, [], false, false⟩

def request (s : Poll) (call : PollCall) : GetDifference :=
  ⟨s.pts, call.ptsLimit, none, call.date, call.qts⟩

variable {υ : Type} (toTl : Update → Option υ) (ctx : RequestContext) (db : UserUpdates)

/-- The rows in the window of the next answer. -/
def window (s : Poll) (call : PollCall) : List Update :=
  db.newUpdates (s.request call) db.serverPts

/-- One call, and the client follows the state in the answer. -/
def step (s : Poll) (call : PollCall) : Option Poll :=
  if s.stopped then none
  else
    let db := { db with secretUpdates := call.secretUpdates }
    let windows := s.windows ++ [s.window db call]
    match getDifference toTl ctx db db db db (s.request call) with
    | .tooLong _ => none
    | .empty _ => some ⟨s.pts, windows, true, true⟩
    | .difference d => some ⟨d.state.pts, windows, true, false⟩
    | .slice d => some ⟨d.state.pts, windows, false, false⟩

def answersWith (s : Poll) (update : Update) : Nat :=
  (s.windows.filter fun window => update ∈ window).length

/-- Every row after `pts` has been in the window of exactly one answer. -/
def SawEachOnce (s : Poll) (pts : Int) : Prop :=
  ∀ update ∈ db.updates, pts < update.pts → s.answersWith update = 1

/-- If the client is behind, then one of the rows that it lacks is within `pts_limit`. -/
def LimitReachesNext (s : Poll) (call : PollCall) : Prop :=
  ∀ limit ∈ call.ptsLimit, (∃ update ∈ db.updates, s.pts < update.pts) →
    ∃ update ∈ db.updates, s.pts < update.pts ∧ update.pts ≤ s.pts + limit

instance (s : Poll) (call : PollCall) : Decidable (s.LimitReachesNext db call) :=
  inferInstanceAs (Decidable (∀ limit ∈ call.ptsLimit, (∃ update ∈ db.updates, s.pts < update.pts) →
    ∃ update ∈ db.updates, s.pts < update.pts ∧ update.pts ≤ s.pts + limit))

end Poll

/-- The pts of the rows are distinct, and `State.pts` was raised before they were stored. -/
structure UserUpdates.Stored (db : UserUpdates) : Prop where
  distinct : (db.updates.map Update.pts).Nodup
  raised : ∀ update ∈ db.updates, update.pts ≤ db.statePts.getD 0

theorem UserUpdates.le_serverPts {db : UserUpdates} {update : Update} (mem : update ∈ db.updates) :
    update.pts ≤ db.serverPts := by
  have listed : update.pts ∈ db.updates.map Update.pts := List.mem_map.mpr ⟨update, mem, rfl⟩
  rw [serverPts]
  cases highest : (db.updates.map Update.pts).max? with
  | none =>
    rw [List.max?_eq_none_iff.mp highest] at listed
    cases listed
  | some top => exact (List.max?_eq_some_iff.mp highest).2 update.pts listed

namespace Poll

variable {υ : Type} {toTl : Update → Option υ} {ctx : RequestContext} {db : UserUpdates}
  {s t : Poll} {call : PollCall}

/-- What the four kinds of answers make of the client. -/
inductive Answered (db : UserUpdates) (s : Poll) (call : PollCall) : Poll → Prop
  | empty (nothing : s.window db call = []) :
      Answered db s call ⟨s.pts, s.windows ++ [s.window db call], true, true⟩
  | onlySecret (nothing : s.window db call = []) :
      Answered db s call ⟨db.statePts.getD 0, s.windows ++ [s.window db call], true, false⟩
  | final (last : Update) (ends : (s.window db call).getLast? = some last)
      (all : db.serverPts ≤ last.pts) :
      Answered db s call ⟨db.statePts.getD 0, s.windows ++ [s.window db call], true, false⟩
  | slice (last : Update) (ends : (s.window db call).getLast? = some last) :
      Answered db s call ⟨last.pts, s.windows ++ [s.window db call], false, false⟩

theorem step_answered (happens : step toTl ctx db s call = some t) :
    s.stopped = false ∧ Answered db s call t := by
  rw [step] at happens
  split at happens
  · cases happens
  · rename_i running
    refine ⟨Bool.eq_false_iff.mpr running, ?_⟩
    simp only at happens
    split at happens
    · cases happens
    · rename_i answered
      cases happens
      have nothing := getDifference_empty answered
      exact .empty nothing
    · rename_i d answered
      cases happens
      obtain ⟨state, ⟨nothing, _⟩ | ⟨last, ends, all⟩⟩ := getDifference_difference answered
      · rw [state]
        exact .onlySecret nothing
      · rw [state]
        exact .final last ends all
    · rename_i d answered
      cases happens
      obtain ⟨last, ends, state⟩ := getDifference_slice answered
      rw [state]
      exact .slice last ends

theorem answersWith_append {window : List Update} (windows : t.windows = s.windows ++ [window])
    (update : Update) :
    t.answersWith update = s.answersWith update + if update ∈ window then 1 else 0 := by
  have last : ([window].filter fun window => update ∈ window).length =
      if update ∈ window then 1 else 0 := by
    rw [List.filter_singleton]
    by_cases mem : update ∈ window
    · rw [if_pos mem, decide_eq_true mem]
      rfl
    · rw [if_neg mem, decide_eq_false mem]
      rfl
  rw [answersWith, windows, List.filter_append, List.length_append, last]
  rfl

theorem mem_window_iff (stored : db.Stored) {last : Update}
    (ends : (s.window db call).getLast? = some last) (update : Update) :
    update ∈ s.window db call ↔
      update ∈ db.updates ∧ s.pts < update.pts ∧ update.pts ≤ last.pts :=
  Paging.mem_page_iff stored.distinct ends

theorem pts_lt_of_ends {last : Update} (ends : (s.window db call).getLast? = some last) :
    last ∈ db.updates ∧ s.pts < last.pts := by
  have mem : last ∈ s.window db call := List.mem_of_getLast? ends
  obtain ⟨listed, later, _⟩ := Paging.mem_of_mem_page mem
  exact ⟨listed, later⟩

theorem lacks_nothing_of_empty (reaches : s.LimitReachesNext db call)
    (nothing : s.window db call = []) : ∀ update ∈ db.updates, update.pts ≤ s.pts := by
  have beyond := (Paging.page_eq_nil_iff (by decide)).mp nothing
  intro update mem
  by_contra behind
  have behind : s.pts < update.pts := not_le.mp behind
  cases limit : call.ptsLimit with
  | none =>
    have upTo : (s.request call).maxPts db.serverPts = db.serverPts := by
      rw [GetDifference.maxPts, request, limit]
    have far := beyond update mem behind
    rw [upTo] at far
    have near := db.le_serverPts mem
    omega
  | some limit' =>
    obtain ⟨next, listed, later, within⟩ := reaches limit' limit ⟨update, mem, behind⟩
    have upTo : (s.request call).maxPts db.serverPts = s.pts + limit' := by
      rw [GetDifference.maxPts, request, limit]
    have far := beyond next listed later
    rw [upTo] at far
    omega

/-- The client has got every row up to its pts in one answer, and no other; the rows beyond are
rows that it asked for; and after a final answer nothing is left. -/
structure UpToDate (db : UserUpdates) (pts : Int) (s : Poll) : Prop where
  counted : ∀ update ∈ db.updates, pts < update.pts →
    s.answersWith update = if update.pts ≤ s.pts then 1 else 0
  ahead : ∀ update ∈ db.updates, s.pts < update.pts → pts < update.pts
  done : s.final = true → ∀ update ∈ db.updates, update.pts ≤ s.pts

/-- A row that the client asked for is in no answer, and will be in none. -/
def Missed (db : UserUpdates) (pts : Int) (s : Poll) : Prop :=
  ∃ update ∈ db.updates, pts < update.pts ∧ s.answersWith update = 0 ∧
    (update.pts ≤ s.pts ∨ s.stopped = true)

theorem Answered.windows (answered : Answered db s call t) :
    t.windows = s.windows ++ [s.window db call] := by
  cases answered <;> rfl

theorem upToDate_start (db : UserUpdates) (pts : Int) : UpToDate db pts (start pts) where
  counted update _ later := by
    have notYet : ¬ update.pts ≤ pts := not_le.mpr later
    exact (if_neg notYet).symm
  ahead _ _ later := later
  done final := nomatch final

private theorem counted_of_empty {pts : Int} (upToDate : UpToDate db pts s)
    (windows : t.windows = s.windows ++ [s.window db call]) (nothing : s.window db call = [])
    {update : Update} (mem : update ∈ db.updates) (asked : pts < update.pts) :
    t.answersWith update = if update.pts ≤ s.pts then 1 else 0 := by
  rw [answersWith_append windows, nothing, if_neg List.not_mem_nil, Nat.add_zero]
  exact upToDate.counted update mem asked

private theorem counted_of_ends (stored : db.Stored) {pts : Int} (upToDate : UpToDate db pts s)
    (windows : t.windows = s.windows ++ [s.window db call]) {last : Update}
    (ends : (s.window db call).getLast? = some last)
    {update : Update} (mem : update ∈ db.updates) (asked : pts < update.pts) :
    t.answersWith update = if update.pts ≤ last.pts then 1 else 0 := by
  have later := (pts_lt_of_ends ends).2
  have inWindow := mem_window_iff stored ends update
  have before := upToDate.counted update mem asked
  rw [answersWith_append windows, before]
  by_cases got : update.pts ≤ s.pts
  · have not_again : update ∉ s.window db call := fun again => by
      have := (inWindow.mp again).2.1
      omega
    rw [if_pos got, if_neg not_again, if_pos (by omega)]
  · by_cases now : update.pts ≤ last.pts
    · rw [if_neg got, if_pos (inWindow.mpr ⟨mem, by omega, now⟩), if_pos now]
    · have not_yet : update ∉ s.window db call := fun again => now (inWindow.mp again).2.2
      rw [if_neg got, if_neg not_yet, if_neg now]

theorem upToDate_step (stored : db.Stored) {pts : Int} (upToDate : UpToDate db pts s)
    (reaches : s.LimitReachesNext db call) (happens : step toTl ctx db s call = some t) :
    UpToDate db pts t := by
  obtain ⟨_, answered⟩ := step_answered happens
  have windows := answered.windows
  cases answered with
  | empty nothing =>
    have complete := lacks_nothing_of_empty reaches nothing
    exact ⟨fun update mem asked => counted_of_empty upToDate windows nothing mem asked,
      upToDate.ahead, fun _ => complete⟩
  | onlySecret nothing =>
    have complete := lacks_nothing_of_empty reaches nothing
    refine ⟨fun update mem asked => ?_, fun update mem later => ?_, fun _ => stored.raised⟩
    · rw [counted_of_empty upToDate windows nothing mem asked, if_pos (complete update mem),
        if_pos (stored.raised update mem)]
    · exact absurd (stored.raised update mem) (not_le.mpr later)
  | final last ends all =>
    refine ⟨fun update mem asked => ?_, fun update mem later => ?_, fun _ => stored.raised⟩
    · have within := (db.le_serverPts mem).trans all
      rw [counted_of_ends stored upToDate windows ends mem asked, if_pos within,
        if_pos (stored.raised update mem)]
    · exact absurd (stored.raised update mem) (not_le.mpr later)
  | slice last ends =>
    have later := (pts_lt_of_ends ends).2
    refine ⟨fun update mem asked => counted_of_ends stored upToDate windows ends mem asked,
      fun update mem beyond => ?_, fun final => nomatch final⟩
    exact upToDate.ahead update mem (lt_trans later beyond)

theorem missed_of_unreached (stored : db.Stored) {pts : Int} (upToDate : UpToDate db pts s)
    (short : ¬ s.LimitReachesNext db call) (happens : step toTl ctx db s call = some t) :
    Missed db pts t := by
  obtain ⟨_, answered⟩ := step_answered happens
  simp only [LimitReachesNext, not_forall] at short
  obtain ⟨limit, given, ⟨update, mem, behind⟩, none_near⟩ := short
  have upTo : (s.request call).maxPts db.serverPts = s.pts + limit := by
    rw [GetDifference.maxPts, request, given]
  have nothing : s.window db call = [] := by
    refine (Paging.page_eq_nil_iff (by decide)).mpr fun other listed later => ?_
    rw [upTo]
    by_contra near
    exact none_near ⟨other, listed, later, not_lt.mp near⟩
  have asked := upToDate.ahead update mem behind
  have uncounted : t.answersWith update = 0 := by
    rw [counted_of_empty upToDate answered.windows nothing mem asked, if_neg (not_le.mpr behind)]
  refine ⟨update, mem, asked, uncounted, ?_⟩
  cases answered with
  | empty => exact .inr rfl
  | onlySecret => exact .inl (stored.raised update mem)
  | final last ends | slice last ends =>
    rw [nothing] at ends
    cases ends

theorem missed_stays (stored : db.Stored) {pts : Int} (missed : Missed db pts s)
    (happens : step toTl ctx db s call = some t) : Missed db pts t := by
  obtain ⟨running, answered⟩ := step_answered happens
  obtain ⟨update, mem, asked, uncounted, passed | stopped⟩ := missed
  · have outside : update ∉ s.window db call := fun inside => by
      obtain ⟨_, later, _⟩ := Paging.mem_of_mem_page inside
      have : s.pts < update.pts := later
      omega
    refine ⟨update, mem, asked, ?_, .inl ?_⟩
    · rw [answersWith_append answered.windows, uncounted, if_neg outside]
    · cases answered with
      | empty => exact passed
      | onlySecret | final => exact stored.raised update mem
      | slice last ends =>
        have later := (pts_lt_of_ends ends).2
        exact passed.trans later.le
  · rw [running] at stopped
    cases stopped

/-- A client that follows the answers to a final one has seen every row once exactly if in each of
its calls the limit reached the next row, as long as there was one. -/
theorem polling_sees_each_once_iff (db : UserUpdates) (stored : db.Stored) (pts : Int)
    (calls : List PollCall) (s : Poll) (run : runFrom (step toTl ctx db) (start pts) calls = some s)
    (final : s.final = true) :
    s.SawEachOnce db pts ↔
      StepsMeet (step toTl ctx db) (fun s call => s.LimitReachesNext db call) (start pts) calls := by
  constructor
  · intro seen
    rcases run_meets_or_loses
      (fun _ _ _ upToDate reaches happens => upToDate_step stored upToDate reaches happens)
      (fun _ _ _ upToDate short happens => missed_of_unreached stored upToDate short happens)
      (fun _ _ _ missed happens => missed_stays stored missed happens)
      (upToDate_start db pts) run with meets | ⟨update, mem, asked, uncounted, _⟩
    · exact meets
    · rw [seen update mem asked] at uncounted
      cases uncounted
  · intro meets update mem asked
    have upToDate : UpToDate db pts s := run_invariant
      (fun _ _ _ upToDate reaches happens => upToDate_step stored upToDate reaches happens)
      (upToDate_start db pts) meets run
    rw [upToDate.counted update mem asked, if_pos (upToDate.done final update mem)]

def rowAt (pts ptsCount : Int) : Update := ⟨.other 0, pts, ptsCount, 0, none, none⟩

/-- A user with rows at 1, 2 and 10: the last one stands for eight pts. -/
def tenPts : UserUpdates where
  updates := [rowAt 1 1, rowAt 2 1, rowAt 10 8]
  statePts := some 10
  secretUpdates := []
  updSeq := 0
  updQts := 0
  channelStates := fun _ => []

private theorem tenPts_stored : tenPts.Stored := ⟨by decide, by decide⟩

def limitedTo (limit : Int) : PollCall := ⟨some limit, 0, 0, []⟩

def pollTenPts : Poll → PollCall → Option Poll :=
  step (fun _ : Update => (none : Option Unit)) ⟨1, 200⟩ tenPts

private theorem run_enough : runFrom pollTenPts (start 0) [limitedTo 2, limitedTo 8] =
    some ⟨10, [[rowAt 1 1, rowAt 2 1], [rowAt 10 8]], true, false⟩ := rfl

/-- Two calls, for two pts and for eight. -/
theorem polling_sees_each_once_iff_enough :
    SawEachOnce tenPts ⟨10, [[rowAt 1 1, rowAt 2 1], [rowAt 10 8]], true, false⟩ 0 :=
  (polling_sees_each_once_iff tenPts tenPts_stored 0 [limitedTo 2, limitedTo 8] _ run_enough
    rfl).mpr (by decide)

/-- With five pts for the second call the client is told that there is nothing left. -/
theorem row_beyond_limit_skipped :
    runFrom pollTenPts (start 0) [limitedTo 2, limitedTo 5] =
        some ⟨2, [[rowAt 1 1, rowAt 2 1], []], true, true⟩ ∧
      ¬ SawEachOnce tenPts ⟨2, [[rowAt 1 1, rowAt 2 1], []], true, true⟩ 0 := by
  refine ⟨rfl, fun seen => ?_⟩
  have last : rowAt 10 8 ∈ tenPts.updates := by decide
  have once := seen (rowAt 10 8) last (by decide)
  cases once

end Poll

end Piltover.Updates
