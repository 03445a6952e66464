/- source: piltover/app/utils/auth_rate_limit.py, piltover/app/handlers/auth.py
   digest: The limit on wrong codes of sign in requests, under any order of their statements. -/

import Mathlib.Logic.Function.Basic
import Piltover.Failure
import Piltover.Foundation.Runs

set_option autoImplicit false

namespace Piltover.Auth

open Piltover.Foundation.Runs

/-- The settings of `auth_rate_limit` that sign in uses; the limiter is enabled. -/
structure RateLimit where
  signInFailLimit : Nat
  shadowBanFailThreshold : Nat

/-- `SignIn` with the address and the auth key that it comes from. The code is what `int` makes of
it. -/
structure SignIn where
  ip : Nat
  authKeyId : Option Nat
  phoneNumber : Nat
  phoneCode : Option Int
  deriving DecidableEq, Repr

/-- The cache keys `auth:fail:ip:…` and `auth:fail:key:…`. -/
inductive CounterKey
  | ip (ip : Nat)
  | key (authKeyId : Nat)
  deriving DecidableEq, Repr

/-- The request is from the address or the key. -/
def SignIn.isFrom (r : SignIn) : CounterKey → Bool
  | .ip ip => r.ip == ip
  | .key authKeyId => r.authKeyId == some authKeyId

/-- What is read of the row that the hash of the request belongs to. -/
structure SentCode where
  code : Int
  expired : Bool
  deriving DecidableEq, Repr

/-- The statement that is next in a request. -/
inductive Stage
  | readingIp (r : SignIn)
  | readingKey (r : SignIn) (authKeyId failures : Nat)
  | finding (r : SignIn)
  | bumpingIp (r : SignIn)
  | settingIp (r : SignIn) (newValue : Nat)
  | bumpingKey (r : SignIn) (authKeyId ipFailures : Nat)
  | settingKey (r : SignIn) (authKeyId ipFailures newValue : Nat)
  | banning (r : SignIn)
  | saving (r : SignIn)
  | clearingIp (r : SignIn)
  | clearingKey (r : SignIn) (authKeyId : Nat)
  deriving DecidableEq, Repr

def Stage.request : Stage → SignIn
  | .readingIp r | .readingKey r _ _ | .finding r | .bumpingIp r | .settingIp r _
  | .bumpingKey r _ _ | .settingKey r _ _ _ | .banning r | .saving r | .clearingIp r
  | .clearingKey r _ => r

inductive Entry
  | refused (r : SignIn) (failure : Failure)
  -- `banned` tells if the address is shadow banned when the codes are compared.
  | compared (r : SignIn) (wrong banned : Bool)
  | cleared (k : CounterKey)

/-- The cache entries; no entry expires. -/
structure Cache where
  failures : CounterKey → Option Nat
  shadow : Nat → Bool

/-- What a statement does: to the cache, to its request, and what there is to tell of it. -/
structure Move where
  cache : Cache
  next : Option Stage
  entries : List Entry

namespace Cache

variable (cache : Cache)

def count (k : CounterKey) : Nat := (cache.failures k).getD 0

def setFailures (k : CounterKey) (value : Option Nat) : Cache :=
  { cache with failures := Function.update cache.failures k value }

def setShadow (ip : Nat) : Cache := { cache with shadow := Function.update cache.shadow ip true }

def goesOn (stage : Stage) : Move := ⟨cache, some stage, []⟩

def ends : Move := ⟨cache, none, []⟩

end Cache

section Steps

variable (cfg : RateLimit) (cache : Cache)

/-- The end of `check_sign_in_allowed`. -/
def checkFailures (failures : Nat) : Except Failure Unit :=
  require (decide (failures < cfg.signInFailLimit))
    (.rpc 420 ("FLOOD_WAIT_" ++
      toString (max (min 600 (60 * (failures - cfg.signInFailLimit + 1))) 1)))

/-- What `sign_in` checks before it looks for the code. -/
def decideAllowed (r : SignIn) (failures : Nat) : Move :=
  match checkFailures cfg failures >>= fun _ =>
      require r.phoneCode.isSome (.rpc 406 "PHONE_CODE_INVALID") with
  | .error failure => ⟨cache, none, [.refused r failure]⟩
  | .ok () => cache.goesOn (.finding r)

/-- The end of `record_sign_in_failure`. -/
def banMaybe (r : SignIn) (failures : Nat) : Move :=
  if failures ≥ cfg.shadowBanFailThreshold then cache.goesOn (.banning r) else cache.ends

/-- The comparison in `check_raise`, with the row that was found. -/
def compare (r : SignIn) (found : Option SentCode) : Move :=
  match found with
  | none => cache.goesOn (.bumpingIp r)
  | some sent =>
    if some sent.code ≠ r.phoneCode then
      ⟨cache, some (.bumpingIp r), [.compared r true (cache.shadow r.ip)]⟩
    else if sent.expired then
      ⟨cache, some (.bumpingIp r), [.compared r false (cache.shadow r.ip)]⟩
    else ⟨cache, some (.saving r), [.compared r false (cache.shadow r.ip)]⟩

/-- The first statement of `check_sign_in_allowed`. -/
def SignIn.start (r : SignIn) : Move :=
  if cache.shadow r.ip then ⟨cache, none, [.refused r (.rpc 400 "PHONE_CODE_INVALID")]⟩
  else cache.goesOn (.readingIp r)

/-- The other statements, each an await. The row is for the one that looks for it. -/
def Stage.advance (found : Option SentCode) : Stage → Move
  | .readingIp r =>
    match r.authKeyId with
    | none => decideAllowed cfg cache r (cache.count (.ip r.ip))
    | some authKeyId => cache.goesOn (.readingKey r authKeyId (cache.count (.ip r.ip)))
  | .readingKey r authKeyId failures =>
    decideAllowed cfg cache r (max failures (cache.count (.key authKeyId)))
  | .finding r => compare cache r found
  | .bumpingIp r => cache.goesOn (.settingIp r (cache.count (.ip r.ip) + 1))
  | .settingIp r newValue =>
    let cache' := cache.setFailures (.ip r.ip) (some newValue)
    match r.authKeyId with
    | none => banMaybe cfg cache' r newValue
    | some authKeyId => cache'.goesOn (.bumpingKey r authKeyId newValue)
  | .bumpingKey r authKeyId ipFailures =>
    cache.goesOn (.settingKey r authKeyId ipFailures (cache.count (.key authKeyId) + 1))
  | .settingKey r authKeyId ipFailures newValue =>
    banMaybe cfg (cache.setFailures (.key authKeyId) (some newValue)) r (max ipFailures newValue)
  | .banning r => (cache.setShadow r.ip).ends
  | .saving r => cache.goesOn (.clearingIp r)
  | .clearingIp r =>
    ⟨cache.setFailures (.ip r.ip) none, r.authKeyId.map (.clearingKey r), [.cleared (.ip r.ip)]⟩
  | .clearingKey _ authKeyId =>
    ⟨cache.setFailures (.key authKeyId) none, none, [.cleared (.key authKeyId)]⟩

end Steps

/-- The cache, the requests under way, and what there is to tell. -/
structure World where
  cache : Cache
  calls : Nat → Option Stage
  log : List Entry

inductive Event
  | start (call : Nat) (r : SignIn)
  | go (call : Nat) (found : Option SentCode)
  deriving DecidableEq, Repr

namespace World

variable (cfg : RateLimit) (w : World)

def apply (call : Nat) (move : Move) : World where
  cache := move.cache
  calls := Function.update w.calls call move.next
  log := w.log ++ move.entries

def step : Event → Option World
  | .start call r =>
    match w.calls call with
    | none => some (w.apply call (r.start w.cache))
    | some _ => none
  | .go call found => (w.calls call).map fun stage =>
    w.apply call (stage.advance cfg w.cache found)

/-- A request from the address or the key starts when no other one is under way. -/
def Alone (k : CounterKey) (w : World) : Event → Prop
  | .start _ r => r.isFrom k = true → ∀ call stage, w.calls call = some stage →
      stage.request.isFrom k = false
  | .go _ _ => True

end World

section Counting

variable (k : CounterKey) (limit : Nat)

def countEntry (wrong : Nat) : Entry → Nat
  | .refused _ _ => wrong
  | .compared r isWrong _ => if r.isFrom k && isWrong then wrong + 1 else wrong
  | .cleared k' => if k' = k then 0 else wrong

/-- A code may be compared for the address or the key: too few have been wrong, and the address is
not banned. -/
def MayCompare (wrong : Nat) : Entry → Prop
  | .compared r _ banned => r.isFrom k = true → wrong < limit ∧ (k = .ip r.ip → banned = false)
  | _ => True

def wrongSince (log : List Entry) : Nat := log.foldl (countEntry k) 0

/-- No code is compared after too many wrong ones. -/
def Guarded : Nat → List Entry → Prop
  | _, [] => True
  | wrong, e :: log => MayCompare k limit wrong e ∧ Guarded (countEntry k wrong e) log

end Counting

section Moves

variable {cfg : RateLimit} {cache : Cache} {k : CounterKey} {limit wrong : Nat} {r : SignIn}

theorem isFrom_iff : r.isFrom k = true ↔
    k = .ip r.ip ∨ ∃ authKeyId, r.authKeyId = some authKeyId ∧ k = .key authKeyId := by
  cases k with
  | ip ip =>
    rw [SignIn.isFrom, beq_iff_eq]
    exact ⟨fun same => .inl (congrArg CounterKey.ip same.symm), fun either => by
      rcases either with same | ⟨_, -, same⟩
      · exact (CounterKey.ip.inj same).symm
      · cases same⟩
  | key authKeyId =>
    rw [SignIn.isFrom, beq_iff_eq]
    exact ⟨fun same => .inr ⟨authKeyId, same, rfl⟩, fun either => by
      rcases either with same | ⟨other, known, same⟩
      · cases same
      · rw [CounterKey.key.inj same]
        exact known⟩

variable (cache k) in
theorem count_setFailures (k' : CounterKey) (value : Option Nat) :
    (cache.setFailures k' value).count k = if k = k' then value.getD 0 else cache.count k := by
  show (Function.update cache.failures k' value k).getD 0 = _
  rw [Function.update_apply]
  split <;> rfl

/-- The request has the key that the statement is about. -/
def Stage.Formed : Stage → Prop
  | .readingKey r authKeyId _ | .bumpingKey r authKeyId _ | .settingKey r authKeyId _ _
  | .clearingKey r authKeyId => r.authKeyId = some authKeyId
  | _ => True

/-- How the counter of a request's own address or key relates to the wrong codes. -/
def Stage.Fits (k : CounterKey) (limit : Nat) (cache : Cache) (wrong : Nat) : Stage → Prop
  | .readingIp _ => wrong ≤ cache.count k ∧ ∀ ip, k = .ip ip → cache.shadow ip = false
  | .readingKey r _ failures => wrong ≤ cache.count k ∧
      (∀ ip, k = .ip ip → cache.shadow ip = false) ∧ (k = .ip r.ip → cache.count k ≤ failures)
  | .finding _ => wrong ≤ cache.count k ∧
      (∀ ip, k = .ip ip → cache.shadow ip = false) ∧ cache.count k < limit
  -- The wrong code has been compared and is not in the counter yet.
  | .bumpingIp _ => wrong ≤ cache.count k + 1
  | .settingIp r newValue =>
    wrong ≤ if k = .ip r.ip then newValue else cache.count k + 1
  | .bumpingKey _ authKeyId _ =>
    wrong ≤ if k = .key authKeyId then cache.count k + 1 else cache.count k
  | .settingKey _ authKeyId _ newValue =>
    wrong ≤ if k = .key authKeyId then newValue else cache.count k
  | _ => wrong ≤ cache.count k

/-- The counter is right after a move, for the request itself or when it has ended. -/
def Move.Fits (k : CounterKey) (limit wrong : Nat) (m : Move) : Prop :=
  Guarded k limit wrong m.entries ∧
    match m.next with
    | none => m.entries.foldl (countEntry k) wrong ≤ m.cache.count k
    | some stage => stage.Fits k limit m.cache (m.entries.foldl (countEntry k) wrong)

def Move.IsOf (r : SignIn) (m : Move) : Prop :=
  ∀ stage, m.next = some stage → stage.request = r ∧ stage.Formed

theorem fits_decideAllowed {failures : Nat} (below : wrong ≤ cache.count k)
    (unbanned : ∀ ip, k = .ip ip → cache.shadow ip = false) (read : cache.count k ≤ failures) :
    (decideAllowed cfg cache r failures).Fits k cfg.signInFailLimit wrong ∧
      (decideAllowed cfg cache r failures).IsOf r := by
  unfold decideAllowed
  split
  · exact ⟨⟨⟨trivial, trivial⟩, below⟩, fun stage none => by cases none⟩
  · rename_i passed
    have few : failures < cfg.signInFailLimit := by
      rw [check_bind_eq_ok, checkFailures, require_eq_ok, decide_eq_true_iff] at passed
      exact passed.1
    refine ⟨⟨trivial, below, unbanned, Nat.lt_of_le_of_lt read few⟩, fun stage next => ?_⟩
    cases next
    exact ⟨rfl, trivial⟩

theorem fits_banMaybe {failures : Nat} (below : wrong ≤ cache.count k) :
    (banMaybe cfg cache r failures).Fits k limit wrong ∧
      (banMaybe cfg cache r failures).IsOf r := by
  unfold banMaybe
  split
  · refine ⟨⟨trivial, below⟩, fun stage next => ?_⟩
    cases next
    exact ⟨rfl, trivial⟩
  · exact ⟨⟨trivial, below⟩, fun stage none => by cases none⟩

theorem fits_compare (found : Option SentCode) (own : r.isFrom k = true)
    (below : wrong ≤ cache.count k) (unbanned : ∀ ip, k = .ip ip → cache.shadow ip = false)
    (few : cache.count k < limit) :
    (compare cache r found).Fits k limit wrong ∧ (compare cache r found).IsOf r := by
  have may : ∀ isWrong, MayCompare k limit wrong (.compared r isWrong (cache.shadow r.ip)) :=
    fun _ _ => ⟨Nat.lt_of_le_of_lt below few, unbanned r.ip⟩
  have counted : countEntry k wrong (.compared r true (cache.shadow r.ip)) = wrong + 1 := by
    rw [countEntry, own, Bool.true_and, if_pos rfl]
  have uncounted : countEntry k wrong (.compared r false (cache.shadow r.ip)) = wrong := by
    rw [countEntry, Bool.and_false, if_neg Bool.false_ne_true]
  have isOf : ∀ stage entries, (stage = .bumpingIp r ∨ stage = .saving r) →
      Move.IsOf r ⟨cache, some stage, entries⟩ := by
    intro stage entries either other next
    cases next
    rcases either with rfl | rfl <;> exact ⟨rfl, trivial⟩
  unfold compare
  split
  · exact ⟨⟨trivial, Nat.le_succ_of_le below⟩, isOf _ _ (.inl rfl)⟩
  · split
    · refine ⟨⟨⟨may true, trivial⟩, ?_⟩, isOf _ _ (.inl rfl)⟩
      show countEntry k wrong (.compared r true (cache.shadow r.ip)) ≤ cache.count k + 1
      rw [counted]
      exact Nat.succ_le_succ below
    · split
      · refine ⟨⟨⟨may false, trivial⟩, ?_⟩, isOf _ _ (.inl rfl)⟩
        show countEntry k wrong (.compared r false (cache.shadow r.ip)) ≤ cache.count k + 1
        rw [uncounted]
        exact Nat.le_succ_of_le below
      · refine ⟨⟨⟨may false, trivial⟩, ?_⟩, isOf _ _ (.inr rfl)⟩
        show countEntry k wrong (.compared r false (cache.shadow r.ip)) ≤ cache.count k
        rw [uncounted]
        exact below

variable (limit) in
theorem fits_start (below : wrong ≤ cache.count k) (own : r.isFrom k = true) :
    (r.start cache).Fits k limit wrong ∧ (r.start cache).IsOf r := by
  unfold SignIn.start
  split
  · exact ⟨⟨⟨trivial, trivial⟩, below⟩, fun stage none => by cases none⟩
  · rename_i unbanned
    refine ⟨⟨trivial, below, fun ip same => ?_⟩, fun stage next => ?_⟩
    · rcases isFrom_iff.mp own with this | ⟨_, -, this⟩
      · rw [this] at same
        rw [← CounterKey.ip.inj same]
        exact Bool.eq_false_iff.mpr unbanned
      · rw [this] at same
        cases same
    · cases next
      exact ⟨rfl, trivial⟩

theorem fits_advance (found : Option SentCode) {stage : Stage} (own : stage.request.isFrom k = true)
    (formed : stage.Formed) (fits : stage.Fits k cfg.signInFailLimit cache wrong) :
    (stage.advance cfg cache found).Fits k cfg.signInFailLimit wrong ∧
      (stage.advance cfg cache found).IsOf stage.request := by
  have goesOn : ∀ {cache' : Cache} {next : Stage}, next.Fits k cfg.signInFailLimit cache' wrong →
      next.request = stage.request → next.Formed →
        (cache'.goesOn next).Fits k cfg.signInFailLimit wrong ∧
          (cache'.goesOn next).IsOf stage.request := by
    intro cache' next fits same formed
    refine ⟨⟨trivial, fits⟩, fun other next => ?_⟩
    cases next
    exact ⟨same, formed⟩
  cases stage with
  | readingIp r =>
    unfold Stage.advance
    dsimp only
    split
    · rename_i keyless
      rcases isFrom_iff.mp (show r.isFrom k = true from own) with same | ⟨_, known, -⟩
      · refine fits_decideAllowed fits.1 fits.2 ?_
        exact Nat.le_of_eq (congrArg cache.count same)
      · rw [keyless] at known
        cases known
    · rename_i authKeyId known
      refine goesOn ⟨fits.1, fits.2, fun same => ?_⟩ rfl known
      exact Nat.le_of_eq (congrArg cache.count same)
  | readingKey r authKeyId failures =>
    obtain ⟨below, unbanned, read⟩ := fits
    refine fits_decideAllowed below unbanned ?_
    rcases isFrom_iff.mp (show r.isFrom k = true from own) with same | ⟨other, known, same⟩
    · exact Nat.le_trans (read same) (Nat.le_max_left _ _)
    · have one : other = authKeyId := Option.some.inj (known.symm.trans formed)
      rw [same, one]
      exact Nat.le_max_right _ _
  | finding r => exact fits_compare found own fits.1 fits.2.1 fits.2.2
  | bumpingIp r =>
    refine goesOn ?_ rfl trivial
    have bumped : wrong ≤ cache.count k + 1 := fits
    show wrong ≤ if k = .ip r.ip then cache.count (.ip r.ip) + 1 else cache.count k + 1
    split
    · rename_i same
      rw [← same]
      exact bumped
    · exact bumped
  | settingIp r newValue =>
    have bumped : wrong ≤ if k = .ip r.ip then newValue else cache.count k + 1 := fits
    have count := count_setFailures cache k (.ip r.ip) (some newValue)
    rw [Option.getD_some] at count
    unfold Stage.advance
    dsimp only
    split
    · rename_i keyless
      refine fits_banMaybe ?_
      rcases isFrom_iff.mp (show r.isFrom k = true from own) with same | ⟨_, known, -⟩
      · rw [if_pos same] at bumped count
        omega
      · rw [keyless] at known
        cases known
    · rename_i authKeyId known
      refine goesOn ?_ rfl known
      show wrong ≤ if k = .key authKeyId
        then (cache.setFailures (.ip r.ip) (some newValue)).count k + 1
        else (cache.setFailures (.ip r.ip) (some newValue)).count k
      rw [count]
      rcases isFrom_iff.mp (show r.isFrom k = true from own) with same | ⟨other, known', same⟩
      · rw [if_pos same] at bumped
        rw [if_pos same]
        split <;> omega
      · have one : other = authKeyId := Option.some.inj (known'.symm.trans known)
        have apart : k ≠ .ip r.ip := by
          rw [same]
          exact fun eq => by cases eq
        rw [if_neg apart] at bumped
        rw [if_pos (one ▸ same), if_neg apart]
        exact bumped
  | bumpingKey r authKeyId ipFailures =>
    refine goesOn ?_ rfl formed
    have bumped : wrong ≤ if k = .key authKeyId then cache.count k + 1 else cache.count k := fits
    show wrong ≤ if k = .key authKeyId then cache.count (.key authKeyId) + 1 else cache.count k
    split
    · rename_i same
      rw [if_pos same, same] at bumped
      exact bumped
    · rename_i apart
      rw [if_neg apart] at bumped
      exact bumped
  | settingKey r authKeyId ipFailures newValue =>
    have bumped : wrong ≤ if k = .key authKeyId then newValue else cache.count k := fits
    refine fits_banMaybe ?_
    rw [count_setFailures, Option.getD_some]
    exact bumped
  | banning r => exact ⟨⟨trivial, fits⟩, fun _ none => by cases none⟩
  | saving r => exact goesOn fits rfl trivial
  | clearingIp r =>
    have below : wrong ≤ cache.count k := fits
    have cleared : countEntry k wrong (.cleared (.ip r.ip)) ≤
        (cache.setFailures (.ip r.ip) none).count k := by
      rw [count_setFailures, countEntry]
      by_cases same : k = .ip r.ip
      · rw [if_pos same.symm]
        exact Nat.zero_le _
      · rw [if_neg (fun eq => same eq.symm), if_neg same]
        exact below
    unfold Stage.advance
    dsimp only
    cases known : r.authKeyId with
    | none => exact ⟨⟨⟨trivial, trivial⟩, cleared⟩, fun _ none => by cases none⟩
    | some authKeyId =>
      refine ⟨⟨⟨trivial, trivial⟩, cleared⟩, fun other next => ?_⟩
      cases next
      exact ⟨rfl, known⟩
  | clearingKey r authKeyId =>
    have below : wrong ≤ cache.count k := fits
    refine ⟨⟨⟨trivial, trivial⟩, ?_⟩, fun _ none => by cases none⟩
    show countEntry k wrong (.cleared (.key authKeyId)) ≤
      (cache.setFailures (.key authKeyId) none).count k
    rw [count_setFailures, countEntry]
    by_cases same : k = .key authKeyId
    · rw [if_pos same.symm]
      exact Nat.zero_le _
    · rw [if_neg (fun eq => same eq.symm), if_neg same]
      exact below

/-- A move of another request does not touch the counter. -/
structure Move.Spares (k : CounterKey) (limit : Nat) (cache : Cache) (r : SignIn) (m : Move) :
    Prop where
  failures : m.cache.failures k = cache.failures k
  shadow : ∀ ip, k = .ip ip → m.cache.shadow ip = cache.shadow ip
  entries : ∀ e ∈ m.entries, ∀ wrong, countEntry k wrong e = wrong ∧ MayCompare k limit wrong e
  isOf : m.IsOf r

section Others

variable {r : SignIn}

theorem not_isFrom (other : r.isFrom k = false) :
    k ≠ .ip r.ip ∧ ∀ authKeyId, r.authKeyId = some authKeyId → k ≠ .key authKeyId := by
  constructor
  · intro same
    exact absurd (isFrom_iff.mpr (.inl same)) (Bool.eq_false_iff.mp other)
  · intro authKeyId known same
    exact absurd (isFrom_iff.mpr (.inr ⟨authKeyId, known, same⟩)) (Bool.eq_false_iff.mp other)

/-- What a request leaves as it was for another address or key. -/
def Cache.Spared (k : CounterKey) (cache cache' : Cache) : Prop :=
  cache'.failures k = cache.failures k ∧ ∀ ip, k = .ip ip → cache'.shadow ip = cache.shadow ip

variable (cache) in
theorem spared_setFailures {k' : CounterKey} (value : Option Nat) (apart : k ≠ k') :
    Cache.Spared k cache (cache.setFailures k' value) :=
  ⟨Function.update_of_ne apart _ _, fun _ _ => rfl⟩

theorem spares_goesOn {cache' : Cache} {next : Stage} (spared : Cache.Spared k cache cache')
    (same : next.request = r) (formed : next.Formed) :
    (cache'.goesOn next).Spares k limit cache r where
  failures := spared.1
  shadow := spared.2
  entries := fun _ none => by cases none
  isOf := fun stage listed => by
    cases listed
    exact ⟨same, formed⟩

theorem spares_ends {cache' : Cache} (spared : Cache.Spared k cache cache') :
    cache'.ends.Spares k limit cache r where
  failures := spared.1
  shadow := spared.2
  entries := fun _ none => by cases none
  isOf := fun _ none => by cases none

theorem spares_refused (r : SignIn) (failure : Failure) :
    Move.Spares k limit cache r ⟨cache, none, [.refused r failure]⟩ where
  failures := rfl
  shadow := fun _ _ => rfl
  entries := fun e listed wrong => by
    rw [List.mem_singleton.mp listed]
    exact ⟨rfl, trivial⟩
  isOf := fun _ none => by cases none

theorem spares_decideAllowed (r : SignIn) (failures : Nat) :
    (decideAllowed cfg cache r failures).Spares k limit cache r := by
  unfold decideAllowed
  split
  · exact spares_refused r _
  · exact spares_goesOn ⟨rfl, fun _ _ => rfl⟩ rfl trivial

theorem spares_banMaybe {cache' : Cache} (r : SignIn) (failures : Nat)
    (spared : Cache.Spared k cache cache') :
    (banMaybe cfg cache' r failures).Spares k limit cache r := by
  unfold banMaybe
  split
  · exact spares_goesOn spared rfl trivial
  · exact spares_ends spared

theorem spares_compared {stage : Stage} {isWrong banned : Bool} (other : r.isFrom k = false)
    (same : stage.request = r) (formed : stage.Formed) :
    Move.Spares k limit cache r ⟨cache, some stage, [.compared r isWrong banned]⟩ where
  failures := rfl
  shadow := fun _ _ => rfl
  entries := fun e listed wrong => by
    rw [List.mem_singleton.mp listed]
    refine ⟨?_, fun own => ?_⟩
    · rw [countEntry, other, Bool.false_and, if_neg Bool.false_ne_true]
    · rw [other] at own
      cases own
  isOf := fun _ listed => by
    cases listed
    exact ⟨same, formed⟩

theorem spares_start (r : SignIn) : (r.start cache).Spares k limit cache r := by
  unfold SignIn.start
  split
  · exact spares_refused r _
  · exact spares_goesOn ⟨rfl, fun _ _ => rfl⟩ rfl trivial

theorem spares_cleared {k' : CounterKey} {next : Option Stage} (apart : k ≠ k')
    (isOf : ∀ stage, next = some stage → stage.request = r ∧ stage.Formed) :
    Move.Spares k limit cache r ⟨cache.setFailures k' none, next, [.cleared k']⟩ where
  failures := (spared_setFailures cache none apart).1
  shadow := fun _ _ => rfl
  entries := fun e listed wrong => by
    rw [List.mem_singleton.mp listed]
    exact ⟨if_neg fun same => apart same.symm, trivial⟩
  isOf := isOf

theorem spares_advance (found : Option SentCode) {stage : Stage}
    (other : stage.request.isFrom k = false) (formed : stage.Formed) :
    (stage.advance cfg cache found).Spares k limit cache stage.request := by
  have kept : Cache.Spared k cache cache := ⟨rfl, fun _ _ => rfl⟩
  obtain ⟨apart, apartKey⟩ := not_isFrom other
  cases stage with
  | readingIp r =>
    unfold Stage.advance
    dsimp only
    split
    · exact spares_decideAllowed r _
    · rename_i authKeyId known
      exact spares_goesOn kept rfl known
  | readingKey r authKeyId failures => exact spares_decideAllowed r _
  | finding r =>
    show (compare cache r found).Spares k limit cache r
    unfold compare
    split
    · exact spares_goesOn kept rfl trivial
    · split
      · exact spares_compared other rfl trivial
      · split
        · exact spares_compared other rfl trivial
        · exact spares_compared other rfl trivial
  | bumpingIp r => exact spares_goesOn kept rfl trivial
  | settingIp r newValue =>
    have spared := spared_setFailures cache (some newValue) apart
    unfold Stage.advance
    dsimp only
    split
    · exact spares_banMaybe r _ spared
    · rename_i authKeyId known
      exact spares_goesOn spared rfl known
  | bumpingKey r authKeyId ipFailures => exact spares_goesOn kept rfl formed
  | settingKey r authKeyId ipFailures newValue =>
    exact spares_banMaybe r _ (spared_setFailures cache _ (apartKey authKeyId formed))
  | banning r =>
    refine spares_ends ⟨rfl, fun ip same => ?_⟩
    exact Function.update_of_ne (fun eq => apart (same.trans (congrArg CounterKey.ip eq))) _ _
  | saving r => exact spares_goesOn kept rfl trivial
  | clearingIp r =>
    refine spares_cleared apart fun next listed => ?_
    obtain ⟨authKeyId, known, rfl⟩ := Option.map_eq_some_iff.mp listed
    exact ⟨rfl, known⟩
  | clearingKey r authKeyId =>
    exact spares_cleared (apartKey authKeyId formed) fun _ none => by cases none

end Others

end Moves

theorem guarded_append {k : CounterKey} {limit : Nat} (before after : List Entry) (wrong : Nat) :
    Guarded k limit wrong (before ++ after) ↔
      Guarded k limit wrong before ∧ Guarded k limit (before.foldl (countEntry k) wrong) after := by
  induction before generalizing wrong with
  | nil => exact ⟨fun guarded => ⟨trivial, guarded⟩, And.right⟩
  | cons e before ih =>
    rw [List.cons_append, Guarded, Guarded, ih, List.foldl_cons, and_assoc]

theorem foldl_le_of_guarded {k : CounterKey} {limit : Nat} {log : List Entry} {wrong : Nat}
    (guarded : Guarded k limit wrong log) (start : wrong ≤ limit) :
    log.foldl (countEntry k) wrong ≤ limit := by
  induction log generalizing wrong with
  | nil => exact start
  | cons e log ih =>
    refine ih guarded.2 ?_
    cases e with
    | refused r failure => exact start
    | compared r isWrong banned =>
      show (if r.isFrom k && isWrong then wrong + 1 else wrong) ≤ limit
      split
      · rename_i counted
        rw [Bool.and_eq_true] at counted
        exact (guarded.1 counted.1).1
      · exact start
    | cleared k' =>
      show (if k' = k then 0 else wrong) ≤ limit
      split
      · exact Nat.zero_le limit
      · exact start

structure World.Inv (cfg : RateLimit) (k : CounterKey) (w : World) : Prop where
  guarded : Guarded k cfg.signInFailLimit 0 w.log
  formed : ∀ call stage, w.calls call = some stage → stage.Formed
  alone : ∀ call stage call' stage', w.calls call = some stage → w.calls call' = some stage' →
    stage.request.isFrom k = true → stage'.request.isFrom k = true → call = call'
  fits : ∀ call stage, w.calls call = some stage → stage.request.isFrom k = true →
    stage.Fits k cfg.signInFailLimit w.cache (wrongSince k w.log)
  idle : (∀ call stage, w.calls call = some stage → stage.request.isFrom k = false) →
    wrongSince k w.log ≤ w.cache.count k

section Runs

variable {cfg : RateLimit} {k : CounterKey} {w t : World}

theorem wrongSince_append (before after : List Entry) :
    wrongSince k (before ++ after) = after.foldl (countEntry k) (wrongSince k before) :=
  List.foldl_append

theorem calls_apply (call c : Nat) (m : Move) :
    (w.apply call m).calls c = if c = call then m.next else w.calls c :=
  Function.update_apply w.calls call m.next c

theorem World.Inv.own {call : Nat} {r : SignIn} {m : Move} (inv : w.Inv cfg k)
    (own : r.isFrom k = true)
    (only : ∀ c stage, w.calls c = some stage → stage.request.isFrom k = true → c = call)
    (fits : m.Fits k cfg.signInFailLimit (wrongSince k w.log)) (isOf : m.IsOf r) :
    (w.apply call m).Inv cfg k := by
  have mine : ∀ c stage, (w.apply call m).calls c = some stage →
      stage.request.isFrom k = true → c = call ∧ m.next = some stage := by
    intro c stage here counted
    rw [calls_apply] at here
    split at here
    · rename_i same
      exact ⟨same, here⟩
    · rename_i other
      exact absurd (only c stage here counted) other
  obtain ⟨guarded, left⟩ := fits
  refine ⟨(guarded_append _ _ 0).mpr ⟨inv.guarded, guarded⟩, fun c stage here => ?_,
    fun c stage c' stage' here here' counted counted' => ?_, fun c stage here counted => ?_,
    fun none => ?_⟩
  · rw [calls_apply] at here
    split at here
    · exact (isOf stage here).2
    · exact inv.formed c stage here
  · exact (mine c stage here counted).1.trans (mine c' stage' here' counted').1.symm
  · rw [(mine c stage here counted).2] at left
    show stage.Fits k cfg.signInFailLimit m.cache (wrongSince k (w.log ++ m.entries))
    rw [wrongSince_append]
    exact left
  · show wrongSince k (w.log ++ m.entries) ≤ m.cache.count k
    rw [wrongSince_append]
    cases next : m.next with
    | none =>
      rw [next] at left
      exact left
    | some stage =>
      have uncounted := none call stage (by rw [calls_apply, if_pos rfl, next])
      rw [(isOf stage next).1, own] at uncounted
      cases uncounted

theorem fits_congr {cache cache' : Cache} {limit wrong : Nat} {stage : Stage}
    (spared : Cache.Spared k cache cache') (fits : stage.Fits k limit cache wrong) :
    stage.Fits k limit cache' wrong := by
  have count : cache'.count k = cache.count k := by rw [Cache.count, spared.1, Cache.count]
  have shadow : (∀ ip, k = .ip ip → cache.shadow ip = false) →
      ∀ ip, k = .ip ip → cache'.shadow ip = false := by
    intro unbanned ip same
    rw [spared.2 ip same]
    exact unbanned ip same
  cases stage with
  | readingIp r => exact ⟨count ▸ fits.1, shadow fits.2⟩
  | readingKey r authKeyId failures => exact ⟨count ▸ fits.1, shadow fits.2.1, count ▸ fits.2.2⟩
  | finding r => exact ⟨count ▸ fits.1, shadow fits.2.1, count ▸ fits.2.2⟩
  | _ =>
    unfold Stage.Fits at fits ⊢
    rw [count]
    exact fits

theorem World.Inv.other {call : Nat} {r : SignIn} {m : Move} (inv : w.Inv cfg k)
    (other : r.isFrom k = false)
    (was : ∀ stage, w.calls call = some stage → stage.request.isFrom k = false)
    (spares : m.Spares k cfg.signInFailLimit w.cache r) : (w.apply call m).Inv cfg k := by
  have neutral : ∀ (entries : List Entry) (wrong : Nat), (∀ e ∈ entries, e ∈ m.entries) →
      entries.foldl (countEntry k) wrong = wrong ∧
        Guarded k cfg.signInFailLimit wrong entries := by
    intro entries
    induction entries with
    | nil => exact fun wrong _ => ⟨rfl, trivial⟩
    | cons e entries ih =>
      intro wrong within
      obtain ⟨same, may⟩ := spares.entries e (within e List.mem_cons_self) wrong
      obtain ⟨later, guarded⟩ := ih wrong fun e' listed =>
        within e' (List.mem_cons_of_mem e listed)
      rw [List.foldl_cons, Guarded, same]
      exact ⟨later, may, guarded⟩
  have count : wrongSince k (w.log ++ m.entries) = wrongSince k w.log := by
    rw [wrongSince_append]
    exact (neutral m.entries _ fun _ listed => listed).1
  have spared : Cache.Spared k w.cache m.cache := ⟨spares.failures, spares.shadow⟩
  have old : ∀ c stage, (w.apply call m).calls c = some stage →
      stage.request.isFrom k = true → w.calls c = some stage := by
    intro c stage here counted
    rw [calls_apply] at here
    split at here
    · rw [(spares.isOf stage here).1, other] at counted
      cases counted
    · exact here
  refine ⟨(guarded_append _ _ 0).mpr ⟨inv.guarded, (neutral m.entries _ fun _ listed => listed).2⟩,
    fun c stage here => ?_, fun c stage c' stage' here here' counted counted' => ?_,
    fun c stage here counted => ?_, fun none => ?_⟩
  · rw [calls_apply] at here
    split at here
    · exact (spares.isOf stage here).2
    · exact inv.formed c stage here
  · exact inv.alone c stage c' stage' (old c stage here counted) (old c' stage' here' counted')
      counted counted'
  · show stage.Fits k cfg.signInFailLimit m.cache (wrongSince k (w.log ++ m.entries))
    rw [count]
    exact fits_congr spared (inv.fits c stage (old c stage here counted) counted)
  · show wrongSince k (w.log ++ m.entries) ≤ m.cache.count k
    rw [count, Cache.count, spared.1]
    refine inv.idle fun c stage here => ?_
    by_cases same : c = call
    · rw [same] at here
      exact was stage here
    · exact none c stage (by rw [calls_apply, if_neg same]; exact here)

theorem step_keeps {e : Event} (inv : w.Inv cfg k) (alone : w.Alone k e)
    (happens : w.step cfg e = some t) : t.Inv cfg k := by
  cases e with
  | start call r =>
    unfold World.step at happens
    dsimp only at happens
    split at happens
    · rename_i unused
      cases happens
      cases counted : r.isFrom k with
      | true =>
        have quiet := alone counted
        obtain ⟨fits, isOf⟩ := fits_start cfg.signInFailLimit (inv.idle quiet) counted
        refine inv.own counted (fun c stage here other => ?_) fits isOf
        rw [quiet c stage here] at other
        cases other
      | false =>
        refine inv.other counted (fun stage here => ?_) (spares_start r)
        rw [unused] at here
        cases here
    · cases happens
  | go call found =>
    obtain ⟨stage, here, rfl⟩ := Option.map_eq_some_iff.mp happens
    have formed := inv.formed call stage here
    cases counted : stage.request.isFrom k with
    | true =>
      obtain ⟨fits, isOf⟩ :=
        fits_advance found counted formed (inv.fits call stage here counted)
      exact inv.own counted (fun c other there own =>
        inv.alone c other call stage there here own counted) fits isOf
    | false =>
      refine inv.other counted (fun other there => ?_) (spares_advance found counted formed)
      rw [here] at there
      rw [← Option.some.inj there]
      exact counted

end Runs

/-- A period begins: nothing has been told of it, and no request from the address or key is under
way. -/
structure World.Begins (k : CounterKey) (w : World) : Prop where
  log : w.log = []
  formed : ∀ call stage, w.calls call = some stage → stage.Formed
  quiet : ∀ call stage, w.calls call = some stage → stage.request.isFrom k = false

/-- Where requests from the address or key do not overlap, at most so many wrong codes are compared
after its counter was cleared, none after that many, and none while the address is banned. -/
theorem guesses_bounded (cfg : RateLimit) {k : CounterKey} {w : World} (begins : w.Begins k)
    {es : List Event} (meets : StepsMeet (World.step cfg) (World.Alone k) w es) :
    HoldsAlong (World.step cfg) (fun t => Guarded k cfg.signInFailLimit 0 t.log ∧
      ∀ part, part <+: t.log → wrongSince k part ≤ cfg.signInFailLimit) w es := by
  have start : w.Inv cfg k := by
    refine ⟨?_, begins.formed, fun call stage _ _ here _ counted => ?_,
      fun call stage here counted => ?_, fun _ => ?_⟩
    · rw [begins.log]
      trivial
    · rw [begins.quiet call stage here] at counted
      cases counted
    · rw [begins.quiet call stage here] at counted
      cases counted
    · rw [begins.log]
      exact Nat.zero_le _
  refine holdsAlong_of_stepsMeet (fun t inv => ⟨inv.guarded, ?_⟩)
    (fun _ _ _ inv alone happens => step_keeps inv alone happens) start meets
  rintro part ⟨rest, whole⟩
  have guarded := inv.guarded
  rw [← whole, guarded_append] at guarded
  exact foldl_le_of_guarded guarded.1 (Nat.zero_le _)

/-- The wrong codes for a phone number from the address or key. -/
def Entry.isWrongFor (k : CounterKey) (phoneNumber : Nat) : Entry → Bool
  | .compared r isWrong _ => r.isFrom k && isWrong && r.phoneNumber == phoneNumber
  | _ => false

private def twoFailures : RateLimit := ⟨2, 15⟩

private def untouched : World := ⟨⟨fun _ => none, fun _ => false⟩, fun _ => none, []⟩

private theorem untouched_begins (k : CounterKey) : untouched.Begins k :=
  ⟨rfl, fun _ _ none => (by cases none), fun _ _ none => (by cases none)⟩

/-- A whole request without an auth key: the code that is stored is 11111. -/
private def whole (phoneNumber : Nat) (phoneCode : Int) : List Event :=
  [.start 0 ⟨1, none, phoneNumber, some phoneCode⟩, .go 0 none, .go 0 (some ⟨11111, false⟩),
    .go 0 none, .go 0 none]

/-- One wrong code is compared and counted. -/
theorem one_guess_bounded : HoldsAlong (World.step twoFailures)
    (fun t => Guarded (.ip 1) 2 0 t.log ∧ ∀ part, part <+: t.log → wrongSince (.ip 1) part ≤ 2)
    untouched (whole 100000 22222) := by
  refine guesses_bounded twoFailures (untouched_begins (.ip 1)) ?_
  refine (stepsMeet_cons rfl).mpr ⟨fun _ _ _ none => (by cases none), ?_⟩
  refine (stepsMeet_cons rfl).mpr ⟨trivial, ?_⟩
  refine (stepsMeet_cons rfl).mpr ⟨trivial, ?_⟩
  refine (stepsMeet_cons rfl).mpr ⟨trivial, ?_⟩
  exact (stepsMeet_cons rfl).mpr ⟨trivial, trivial⟩

/-- With a success for another number in between, three wrong codes are compared for one. -/
theorem three_guesses : ¬ ∀ (cfg : RateLimit) (k : CounterKey) (w t : World) (es : List Event),
    w.Begins k → runFrom (World.step cfg) w es = some t →
      ∀ phoneNumber, (t.log.filter (Entry.isWrongFor k phoneNumber)).length ≤
        cfg.signInFailLimit := by
  intro bounded
  have few := bounded twoFailures (.ip 1) untouched _
    (whole 100000 22222 ++ whole 200000 11111 ++ whole 100000 33333 ++ whole 100000 44444)
    (untouched_begins (.ip 1)) rfl 100000
  exact absurd few (by decide)

end Piltover.Auth
