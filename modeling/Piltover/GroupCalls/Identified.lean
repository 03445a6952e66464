/- source: piltover/app/handlers/group_calls.py, piltover/app/utils/group_calls.py
   digest: In every order of their turns, requests leave sources that identify streams. -/

import Piltover.GroupCalls.Streams

set_option autoImplicit false

namespace Piltover.GroupCalls

open Piltover.Foundation
open Piltover.Foundation.Runs
open Piltover.Foundation.Interleaved

/-- The sources of those present identify streams, also for who checks them or looks them up, and
the database has refused none. -/
structure Identified (w : Calls) : Prop where
  distinct : ∀ p ∈ w.shared.db.participants.table, ∀ q ∈ w.shared.db.participants.table,
    p.left = false → q.left = false → p.groupCallId = q.groupCallId →
    ∀ k l source, p.stream k = some source → q.stream l = some source → p = q ∧ k = l
  checked : ∀ userId callId sources found,
    w.shared.db.checkGroupCall userId callId sources = .ok found → ∀ source ∈ found,
      ∃ p k, (p ∈ w.shared.db.present callId ∧ p.stream k = some source) ∧
        ∀ q l, q ∈ w.shared.db.present callId → q.stream l = some source → q = p ∧ l = k
  lookedUp : ∀ callId sources, ∀ p ∈ w.shared.db.lookUp callId sources,
    ∀ q ∈ w.shared.db.lookUp callId sources, ∀ k l source,
      p.stream k = some source → q.stream l = some source → p = q ∧ k = l
  answered : Ending.sourceTaken ∉ w.shared.endings

/-- A source from the client that another stream of the call has ends the request with an
`ErrorRpc`, and everything stays. -/
def Refuses (w : Calls) (e : Happening) (w' : Calls) : Prop :=
  ∀ n now v seat source h, e = .go n now → w.calls n = some (.visit v) →
    v.stage = .choosing seat → seat.ssrc.client = some source →
    w.shared.db.Uses v.call.id h source → h ≠ ⟨v.userId, seat.kind⟩ →
    w'.shared.db = w.shared.db ∧ w'.calls n = none ∧
      w'.shared.endings = w.shared.endings ++
        [.raised (.rpc 400 "GROUPCALL_SSRC_DUPLICATE_MUCH")]

/-- Nothing is under way, and no two streams of a call have the same source. -/
structure Begins (w : Calls) : Prop where
  idle : w.Idle
  distinct : ∀ callId h h' source, w.shared.db.Uses callId h source →
    w.shared.db.Uses callId h' source → h = h'
  answered : Ending.sourceTaken ∉ w.shared.endings

/-- What is true between the turns of requests. -/
structure Sound (w : Calls) : Prop where
  fits : ∀ n t, w.calls n = some t → t.Fits w.shared.db
  single : Single w
  answered : Ending.sourceTaken ∉ w.shared.endings

section Steps

variable {env : Env} {w w' : Calls} {e : Happening}

theorem sound_of_begins (begins : Begins w) : Sound w := by
  have used : ∀ {callId h source}, Claimed w callId h source →
      w.shared.db.Uses callId h source := by
    rintro callId h source (uses | ⟨n, t, here, -⟩)
    · exact uses
    · rw [begins.idle n] at here
      cases here
  refine ⟨fun n t here => ?_, fun callId h h' source first second => ?_, begins.answered⟩
  · rw [begins.idle n] at here
    cases here
  · exact begins.distinct callId h h' source (used first) (used second)

theorem begin_spec (hall : Hall) (asked : Asked) :
    (asked.begin hall).1.db = hall.db ∧
      (Ending.sourceTaken ∉ hall.endings → Ending.sourceTaken ∉ (asked.begin hall).1.endings) ∧
      ∀ next, (asked.begin hall).2 = some next →
        next.Fits hall.db ∧ ∀ callId h source, ¬ next.Reserves callId h source := by
  have ends : ∀ failure, (hall.ends (.raised failure)).1.db = hall.db ∧
      (Ending.sourceTaken ∉ hall.endings →
        Ending.sourceTaken ∉ (hall.ends (.raised failure)).1.endings) ∧
      ∀ next, (hall.ends (.raised failure)).2 = some next →
        next.Fits hall.db ∧ ∀ callId h source, ¬ next.Reserves callId h source := by
    intro failure
    refine ⟨rfl, fun clean => ?_, fun next goes => (by cases goes)⟩
    show Ending.sourceTaken ∉ hall.endings ++ [.raised failure]
    simpa using clean
  cases asked with
  | participate userId callId r =>
    simp only [Asked.begin]
    split
    · exact ends _
    · refine ⟨rfl, fun clean => clean, fun next goes => ?_⟩
      cases goes
      exact ⟨trivial, fun _ _ _ reserves => reserves⟩
  | manage callId refusal m =>
    simp only [Asked.begin]
    split
    · exact ends _
    · refine ⟨rfl, fun clean => clean, fun next goes => ?_⟩
      cases goes
      exact ⟨trivial, fun _ _ _ reserves => reserves⟩
  | create refusal c =>
    cases refusal with
    | some failure => exact ends _
    | none =>
      refine ⟨rfl, fun clean => clean, fun next goes => ?_⟩
      cases goes
      exact ⟨trivial, fun _ _ _ reserves => reserves⟩

theorem alone_of_single {n : Nat} {t : Pending} (single : Single w) (here : w.calls n = some t) :
    Alone w.shared.db t := by
  intro callId h h' source first second
  exact single callId h h' source (first.imp_right fun reserves => ⟨n, t, here, reserves⟩)
    (second.imp_right fun reserves => ⟨n, t, here, reserves⟩)

theorem claimed_turn {n : Nat} {t : Pending} {now : Int} {callId : Nat} {h : Holder} {source : Int}
    (here : w.calls n = some t) (fits : t.Fits w.shared.db)
    (claimed : Claimed (w.turn n (t.advance env w.shared now)) callId h source) :
    Claimed w callId h source ∨ t.Chooses w.shared callId h source := by
  have touches := touches_advance env w.shared now t
  rcases claimed with uses | ⟨m, s, there, reserves⟩
  · refine .inl ((uses_of_touches touches fits uses).imp_right fun reserves => ?_)
    exact ⟨n, t, here, reserves⟩
  · rcases World.calls_turn_cases there with ⟨rfl, goes⟩ | ⟨-, before⟩
    · refine ((next_advance fits goes).2 callId h source reserves).imp_left fun old => ?_
      exact .inr ⟨m, t, here, old⟩
    · exact .inl (.inr ⟨m, s, before, reserves⟩)

theorem single_turn {n : Nat} {t : Pending} {now : Int} (single : Single w)
    (careful : Careful w (.go n now)) (here : w.calls n = some t) (fits : t.Fits w.shared.db) :
    Single (w.turn n (t.advance env w.shared now)) := by
  -- what has just been chosen is claimed for no other stream
  have chosen : ∀ callId h h' source, t.Chooses w.shared callId h source →
      Claimed w callId h' source → h' = h := by
    intro callId h h' source chooses claimed
    cases t with
    | visit v =>
      obtain ⟨seat, allocated, stage, ok, rfl, rfl⟩ := chooses
      exact eq_of_choose careful here stage ok claimed
    | _ => exact chooses.elim
  intro callId h h' source first second
  rcases claimed_turn here fits first with old | new <;>
    rcases claimed_turn here fits second with old' | new'
  · exact single callId h h' source old old'
  · exact chosen callId h' h source new' old
  · exact (chosen callId h h' source new old').symm
  · cases t with
    | visit v =>
      obtain ⟨seat, allocated, stage, -, -, rfl⟩ := new
      obtain ⟨seat', allocated', stage', -, -, rfl⟩ := new'
      cases stage.symm.trans stage'
      rfl
    | _ => exact new.elim

theorem sound_step (sound : Sound w) (careful : Careful w e)
    (happens : (visiting env).step w e = some w') : Sound w' := by
  rcases Machine.step_cases happens with ⟨n, asked, now, rfl, -, rfl⟩ |
    ⟨n, now, t, rfl, here, rfl⟩ | ⟨other, -, -⟩
  · obtain ⟨same, clean, next⟩ := begin_spec w.shared asked
    have shared : (w.turn n ((visiting env).begin w.shared asked now)).shared.db = w.shared.db :=
      same
    have old : ∀ m s, (w.turn n ((visiting env).begin w.shared asked now)).calls m = some s →
        (s.Fits w.shared.db ∧ ∀ callId h source, ¬ s.Reserves callId h source) ∨
          w.calls m = some s := by
      intro m s there
      rcases World.calls_turn_cases there with ⟨-, goes⟩ | ⟨-, before⟩
      · exact .inl (next s goes)
      · exact .inr before
    have claims : ∀ callId h source,
        Claimed (w.turn n ((visiting env).begin w.shared asked now)) callId h source →
          Claimed w callId h source := by
      rintro callId h source (uses | ⟨m, s, there, reserves⟩)
      · rw [shared] at uses
        exact .inl uses
      · rcases old m s there with ⟨-, free⟩ | before
        · exact absurd reserves (free callId h source)
        · exact .inr ⟨m, s, before, reserves⟩
    refine ⟨fun m s there => ?_, fun callId h h' source first second => ?_, clean sound.answered⟩
    · rw [shared]
      rcases old m s there with ⟨fits, -⟩ | before
      · exact fits
      · exact sound.fits m s before
    · exact sound.single callId h h' source (claims _ _ _ first) (claims _ _ _ second)
  · have fits := sound.fits n t here
    have touches := touches_advance env w.shared now t
    refine ⟨fun m s there => ?_, single_turn sound.single careful here fits, ?_⟩
    · rcases World.calls_turn_cases there with ⟨-, goes⟩ | ⟨-, before⟩
      · exact fits_of_touches touches (next_advance fits goes).1
      · exact fits_of_touches touches (sound.fits m s before)
    · show Ending.sourceTaken ∉ (t.advance env w.shared now).1.endings
      rcases endings_advance fits (alone_of_single sound.single here) env now with
        same | ⟨ending, other, same⟩
      · rw [same]
        exact sound.answered
      · rw [same, List.mem_append, List.mem_singleton, not_or]
        exact ⟨sound.answered, other.symm⟩
  · exact other.elim

theorem identified_of_sound (sound : Sound w) : Identified w := by
  have one : ∀ p ∈ w.shared.db.participants.table, ∀ q ∈ w.shared.db.participants.table,
      p.groupCallId = q.groupCallId → ∀ k l source, p.stream k = some source →
      q.stream l = some source → p = q ∧ k = l := by
    intro p here q there call k l source first second
    have same := sound.single q.groupCallId ⟨p.userId, k⟩ ⟨q.userId, l⟩ source
      (.inl ⟨p, here, call, rfl, first⟩) (.inl ⟨q, there, rfl, rfl, second⟩)
    have member : p.member = q.member := Prod.ext call (congrArg Holder.userId same)
    exact ⟨List.inj_on_of_nodup_map w.shared.db.participants.members here there member,
      congrArg Holder.kind same⟩
  have listed : ∀ {callId : Nat} {p : GroupCallParticipant},
      p ∈ w.shared.db.participants.inCall callId →
      p ∈ w.shared.db.participants.table ∧ p.groupCallId = callId := by
    intro callId p here
    obtain ⟨there, call⟩ := List.mem_filter.mp here
    exact ⟨Table.mem_def.mpr there, beq_iff_eq.mp call⟩
  refine ⟨fun p here q there _ _ => one p here q there, ?_, ?_, sound.answered⟩
  · intro userId callId sources found ok source known
    obtain ⟨call, loaded, rest⟩ := (bind_eq_ok _).mp ok
    obtain ⟨_, -, rest⟩ := (bind_eq_ok _).mp rest
    cases rest
    obtain ⟨loaded', got, rest⟩ := orRaise_bind_eq_ok.mp loaded
    obtain ⟨-, rest⟩ := check_bind_eq_ok.mp rest
    cases rest
    obtain rfl := (Table.get_eq_some_iff.mp got).2
    have active := List.contains_iff_mem.mp (List.mem_filter.mp known).2
    obtain ⟨p, here, has⟩ := List.mem_flatMap.mp active
    obtain ⟨k, given⟩ := mem_sources.mp has
    obtain ⟨inTable, inCall⟩ := listed (List.mem_filter.mp here).1
    refine ⟨p, k, ⟨here, given⟩, fun q l there given' => ?_⟩
    obtain ⟨inTable', inCall'⟩ := listed (List.mem_filter.mp there).1
    exact one q inTable' p inTable (inCall'.trans inCall.symm) l k source given' given
  · intro callId sources p here q there k l source first second
    obtain ⟨inTable, call⟩ := listed (List.mem_filter.mp here).1
    obtain ⟨inTable', call'⟩ := listed (List.mem_filter.mp there).1
    exact one p inTable q inTable' (call.trans call'.symm) k l source first second

theorem refuses_step (careful : Careful w e) (happens : (visiting env).step w e = some w') :
    Refuses w e w' := by
  rintro n now v seat source h rfl here stage given uses other
  obtain ⟨t, there, rfl⟩ := Option.map_eq_some_iff.mp happens
  cases here.symm.trans there
  have free : v.Free w seat source :=
    (careful v seat here stage).1 [] source [] (by rw [Seat.tries, given]; rfl) nofun
  have seen := (free h other).2 uses
  have refused : v.choose w.shared seat =
      .error (.rpc 400 "GROUPCALL_SSRC_DUPLICATE_MUCH") := by
    unfold Visit.choose Db.ensureUniqueSsrc chooseSsrc
    rw [given]
    dsimp only
    rw [List.contains_iff_mem.mpr (mem_taken.mpr ⟨seen.2, h, seen.1, uses⟩)]
    rfl
  have turn : (visiting env).advance w.shared (.visit v) now =
      w.shared.ends (.raised (.rpc 400 "GROUPCALL_SSRC_DUPLICATE_MUCH")) := by
    show v.advance env w.shared now = _
    simp only [Visit.advance, stage, refused]
  rw [turn]
  exact ⟨rfl, World.calls_turn_self, rfl⟩

end Steps

section Runs

variable {env : Env} {w : Calls} {es : List Happening}

/-- Sources identify streams in every order of the turns of requests, as long as none is tried that
another stream of the user has or another request has chosen, and no next source is given away that
is claimed. -/
theorem sources_identify (env : Env) (begins : Begins w)
    (meets : StepsMeet (visiting env).step Careful w es) :
    HoldsAlong (visiting env).step Identified w es ∧ EachStep (visiting env).step Refuses w es := by
  refine ⟨holdsAlong_of_stepsMeet (fun _ => identified_of_sound)
    (fun _ _ _ sound careful happens => sound_step sound careful happens)
    (sound_of_begins begins) meets, ?_⟩
  rintro pre e m t ⟨tail, rfl⟩ run happens
  rw [List.append_assoc, stepsMeet_append run, List.singleton_append,
    stepsMeet_cons happens] at meets
  exact refuses_step meets.2.1 happens

end Runs

private def singer : GroupCallParticipant where
  id := 1
  groupCallId := 1
  userId := 5
  joinAsUserId := some 5
  joinAsChannelId := none
  source := 700
  muted := false
  mutedByAdmin := false
  volume := defaultGroupCallVolume
  volumeByAdmin := false
  videoStopped := true
  videoSource := none
  presentationSource := none
  videoEndpoint := none
  presentationEndpoint := none
  videoSourceGroups := none
  presentationSourceGroups := none
  videoPaused := false
  presentationPaused := false
  raiseHandRating := none
  left := false

private def concert : Calls where
  shared := {
    db := {
      calls := ⟨[⟨1, some 0, none, none, false, none, 1, 1, 1, none, 5⟩], by decide⟩
      participants := ⟨⟨[singer], by decide⟩, by decide, by decide⟩ }
    changes := []
    endings := [] }
  calls := fun _ => none

private theorem concert_begins : Begins concert := by
  refine ⟨fun _ => rfl, ?_, List.not_mem_nil⟩
  have only : ∀ {callId : Nat} {h : Holder} {source : Int},
      concert.shared.db.Uses callId h source → h = ⟨5, .audio⟩ := by
    rintro callId ⟨userId, k⟩ source ⟨p, here, -, rfl, given⟩
    obtain rfl := List.mem_singleton.mp (Table.mem_def.mp here)
    cases k with
    | audio => rfl
    | video => cases given
    | presentation => cases given
  exact fun callId h h' source first second => (only first).trans (only second).symm

/-- The singer turns the camera on while a listener joins. -/
private def duet : List Happening :=
  [.start 0 (.participate 6 1 (.join ⟨.self, true, true, none, ⟨some 800, []⟩⟩)) 0,
    .start 1 (.participate 5 1 (.video ⟨some 801, []⟩ [] false)) 0,
    .go 0 0, .go 1 0, .go 0 0, .go 1 0, .go 1 0, .go 0 0, .go 0 0, .go 1 0, .go 0 0]

example : (runFrom (visiting ⟨"::1"⟩).step concert duet).map (fun w =>
    (w.shared.db.participants.table.rows.map fun p => p.sources, w.shared.endings)) =
  some ([[700, 801], [800]], [.answered, .answered]) := by decide +kernel

private theorem careful_turn {w : Calls} {n : Nat} {now : Int} {v : Visit}
    (here : w.calls n = some (.visit v)) (other : ∀ seat, v.stage ≠ .choosing seat) :
    Careful w (.go n now) := by
  intro u seat there stage
  cases here.symm.trans there
  exact absurd stage (other seat)

/-- Nobody claims the source that the client brings. -/
private theorem careful_client {w : Calls} {n : Nat} {now : Int} {v : Visit} {seat : Seat}
    {source : Int} (here : w.calls n = some (.visit v)) (stage : v.stage = .choosing seat)
    (given : seat.ssrc.client = some source) (free : ∀ h, ¬ Claimed w v.call.id h source) :
    Careful w (.go n now) := by
  intro u other there stage'
  cases here.symm.trans there
  cases stage.symm.trans stage'
  refine ⟨fun tried s rest split _ h _ => ?_, fun absent => by cases given.symm.trans absent⟩
  rw [Seat.tries, given] at split
  obtain ⟨rfl, same⟩ | ⟨_, rfl, none⟩ := List.cons_eq_append_iff.mp split
  · cases same
    exact ⟨fun reserved => free h (.inr reserved), fun uses => absurd (.inl uses) (free h)⟩
  · cases List.append_eq_nil_iff.mp none.symm |>.2

private theorem unclaimed {w : Calls} {callId : Nat} {source : Int} (h : Holder)
    (unused : ∀ p ∈ w.shared.db.participants.table.rows, source ∉ p.sources)
    (two : ∀ n, 2 ≤ n → w.calls n = none)
    (free : ∀ n t, n < 2 → w.calls n = some t → ∀ h, ¬ t.Reserves callId h source) :
    ¬ Claimed w callId h source := by
  rintro (⟨p, here, -, -, given⟩ | ⟨n, t, there, reserves⟩)
  · exact unused p (Table.mem_def.mp here) (mem_sources.mpr ⟨h.kind, given⟩)
  · by_cases near : n < 2
    · exact free n t near there h reserves
    · rw [two n (Nat.le_of_not_lt near)] at there
      cases there

theorem duet_identified :
    HoldsAlong (visiting ⟨"::1"⟩).step Identified concert duet ∧
      EachStep (visiting ⟨"::1"⟩).step Refuses concert duet := by
  refine sources_identify ⟨"::1"⟩ concert_begins ?_
  refine (stepsMeet_cons rfl).mpr ⟨trivial, (stepsMeet_cons rfl).mpr ⟨trivial, ?_⟩⟩
  refine (stepsMeet_cons rfl).mpr ⟨careful_turn rfl (fun _ => Stage.noConfusion), ?_⟩
  refine (stepsMeet_cons rfl).mpr ⟨careful_turn rfl (fun _ => Stage.noConfusion), ?_⟩
  refine (stepsMeet_cons rfl).mpr ⟨?_, ?_⟩
  · refine careful_client rfl rfl rfl fun h =>
      unclaimed h (by decide) (fun n far => ?_) fun n t near there h => ?_
    · obtain ⟨m, rfl⟩ := Nat.exists_eq_add_of_le' far
      rfl
    · obtain rfl | rfl : n = 0 ∨ n = 1 := by omega
      · cases there
        exact fun reserves => reserves
      · cases there
        exact fun reserves => reserves
  refine (stepsMeet_cons rfl).mpr ⟨?_, ?_⟩
  · refine careful_client rfl rfl rfl fun h =>
      unclaimed h (by decide) (fun n far => ?_) fun n t near there h => ?_
    · obtain ⟨m, rfl⟩ := Nat.exists_eq_add_of_le' far
      rfl
    · obtain rfl | rfl : n = 0 ∨ n = 1 := by omega
      · cases there
        exact fun reserves => absurd reserves.2.2 (by decide)
      · cases there
        exact fun reserves => reserves
  refine (stepsMeet_cons rfl).mpr ⟨careful_turn rfl (fun _ => Stage.noConfusion), ?_⟩
  refine (stepsMeet_cons rfl).mpr ⟨careful_turn rfl (fun _ => Stage.noConfusion), ?_⟩
  refine (stepsMeet_cons rfl).mpr ⟨careful_turn rfl (fun _ => Stage.noConfusion), ?_⟩
  refine (stepsMeet_cons rfl).mpr ⟨careful_turn rfl (fun _ => Stage.noConfusion), ?_⟩
  exact (stepsMeet_cons rfl).mpr ⟨careful_turn rfl (fun _ => Stage.noConfusion), trivial⟩

private def echo : GroupCallParticipant :=
  { singer with
    videoStopped := false
    videoSource := some 700
    videoEndpoint := some "::1/1/5/video"
    videoSourceGroups := some [.group "default" [some 700]] }

private def echoing : List Happening :=
  [.start 0 (.participate 5 1 (.video ⟨some 700, []⟩ [] false)) 0, .go 0 0, .go 0 0, .go 0 0]

private theorem echoing_rows : ∃ w, runFrom (visiting ⟨"::1"⟩).step concert echoing = some w ∧
    w.shared.db.participants.table.rows = [echo] := by
  refine ⟨_, rfl, ?_⟩
  decide +kernel

/-- The source of one's own other stream is not found to be taken. -/
theorem camera_like_microphone : ¬ ∀ (env : Env) (w : Calls) (es : List Happening), Begins w →
    HoldsAlong (visiting env).step Identified w es ∧ EachStep (visiting env).step Refuses w es := by
  intro all
  obtain ⟨w, run, rows⟩ := echoing_rows
  have identified := (all ⟨"::1"⟩ concert echoing concert_begins).1 _ w (List.prefix_refl _) run
  have here : echo ∈ w.shared.db.participants.table :=
    Table.mem_def.mpr (rows ▸ List.mem_cons_self)
  cases (identified.distinct echo here echo here rfl rfl rfl .audio .video 700 rfl rfl).2

end Piltover.GroupCalls
