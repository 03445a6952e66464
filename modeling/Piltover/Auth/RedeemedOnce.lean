/- source: piltover/app/handlers/auth.py, piltover/db/models/sentcode.py
   digest: A login needs a code that is current, once, and in which runs. -/

import Piltover.Auth.SentCodes
import Piltover.Foundation.Runs

set_option autoImplicit false

namespace Piltover.Codes

open Piltover.Foundation
open Piltover.Foundation.Runs

/-! ### What the requests owe -/

/-- The sign in presents the code that is stored, which is not expired and not used. -/
def Right (r : SignIn) (stored : Option SentCode) (now : Int) : Prop :=
  ∃ s, stored = some s ∧ s.code = r.phoneCode ∧ now ≤ s.expiresAt ∧ s.used = false

def Proven (log : List Entry) (number : Phone) : Prop :=
  ∃ r stored now, .compared r stored now ∈ log ∧ r.phoneNumber = number ∧ Right r stored now

/-- What may follow the entries so far: a row for a number is proven, a code is redeemed once and
not after a request has returned that replaced or removed it. -/
def Entry.Allowed (seen : List Entry) : Entry → Prop
  | .authorized number | .userCreated number => Proven seen number
  | .accepted kind h => .accepted kind h ∉ seen ∧ ∀ gone, .returned gone ∈ seen → h ∉ gone
  | _ => True

def Lawful (log : List Entry) : Prop :=
  ∀ pre e post, log = pre ++ e :: post → e.Allowed pre

/-- The request has checked a row with this id and has yet to save it. -/
def Stage.Holds (id : Nat) : Stage → Prop
  | .redeeming _ row | .consuming _ row => row.id = id
  | _ => False

def Stage.HoldsCode (h : CodeHash) : Stage → Prop
  | .redeeming _ row | .consuming _ row => row.phoneCodeHash = h
  | _ => False

namespace World

/-- The row is not between the check and the save of a request. -/
def Free (w : World) (id : Nat) : Prop :=
  ∀ call stage, w.calls call = some stage → ¬ stage.Holds id

/-- A check that succeeds is made on a free row, and no request returns that has replaced or removed
a code that another one has checked and has yet to save. -/
def Apart (w : World) : Event → Prop
  | .go call now _ =>
    match w.calls call with
    | some (.signingIn r) => ∀ s,
        w.tables.get_ r.phoneNumber r.phoneCodeHash (some .signin) = some s →
        s.code = r.phoneCode → s.isExpired now = false → w.Free s.id
    | some (.signingUp r) => ∀ s,
        w.tables.get_ r.phoneNumber r.phoneCodeHash (some .signup) = some s →
        s.isExpired now = false → w.Free s.id
    | some (.returning gone) => ∀ other stage, w.calls other = some stage →
        ∀ h ∈ gone, ¬ stage.HoldsCode h
    | _ => True
  | _ => True

/-- Before the first of the requests: no row waits for a sign up. -/
structure Begins (w : World) : Prop where
  quiet : ∀ call, w.calls call = none
  log : w.log = []
  ids : ∀ s ∈ w.tables.codes, s.id < w.tables.nextId
  hashes : ∀ s ∈ w.tables.codes, s.hash < w.tables.nextHash
  purposes : ∀ s ∈ w.tables.codes, s.purpose ≠ .signup

end World

section Logs

variable {log : List Entry} {e : Entry} {number : Phone}

theorem Proven.mono (proven : Proven log number) (later : List Entry) :
    Proven (log ++ later) number := by
  obtain ⟨r, stored, now, here, same, right⟩ := proven
  exact ⟨r, stored, now, List.mem_append_left later here, same, right⟩

theorem lawful_nil : Lawful [] := by
  intro pre e post whole
  cases pre <;> cases whole

theorem Lawful.concat (lawful : Lawful log) (allowed : e.Allowed log) : Lawful (log ++ [e]) := by
  intro pre f post whole
  rcases List.eq_nil_or_concat post with rfl | ⟨rest, last, rfl⟩
  · obtain ⟨rfl, same⟩ := List.append_inj' whole rfl
    cases same
    exact allowed
  · rw [List.concat_eq_append, ← List.cons_append, ← List.append_assoc] at whole
    exact lawful pre f rest (List.append_inj' whole rfl).1

end Logs

/-! ### What holds under way -/

/-- What a request relies on at a stage. -/
def Stage.Fits (t : Tables) (log : List Entry) : Stage → Prop
  | .replacing row | .deleting row => row.hash < t.nextHash
  | .returning gone => ∀ h ∈ gone, h.hash < t.nextHash ∧ ∀ s ∈ t.codes, s.phoneCodeHash ≠ h
  | .redeeming r row => Proven log r.phoneNumber ∧ row.id < t.nextId ∧ row.hash < t.nextHash ∧
      (∀ s ∈ t.codes, s.id = row.id → s.phoneNumber = r.phoneNumber ∧ s.purpose = .signin) ∧
      Entry.Allowed log (.accepted .signIn row.phoneCodeHash)
  | .consuming r row => Proven log r.phoneNumber ∧ row.id < t.nextId ∧ row.hash < t.nextHash ∧
      (∀ s ∈ t.codes, s.id = row.id → s.phoneNumber = r.phoneNumber ∧ s.purpose = .signup) ∧
      Entry.Allowed log (.accepted .signUp row.phoneCodeHash)
  | .lookingUp r | .leaving r => Proven log r.phoneNumber
  | .checkingPhone r | .creatingUser r => Proven log r.phoneNumber
  | .authorizing number _ => Proven log number
  | _ => True

/-- What the rows and the log have to do with each other. -/
structure Tables.Fits (t : Tables) (log : List Entry) : Prop where
  ids : ∀ s ∈ t.codes, s.id < t.nextId
  hashes : ∀ s ∈ t.codes, s.hash < t.nextHash
  accepted : ∀ kind h, .accepted kind h ∈ log → h.hash < t.nextHash
  returned : ∀ gone, .returned gone ∈ log → ∀ h ∈ gone, h.hash < t.nextHash
  signin : ∀ s ∈ t.codes, s.purpose = .signin → ∀ kind, .accepted kind s.phoneCodeHash ∉ log
  signup : ∀ s ∈ t.codes, s.purpose = .signup → Proven log s.phoneNumber
  unused : ∀ s ∈ t.codes, s.used = false → .accepted .signUp s.phoneCodeHash ∉ log
  gone : ∀ gone, .returned gone ∈ log → ∀ h ∈ gone, ∀ s ∈ t.codes, s.phoneCodeHash ≠ h

structure World.Inv (w : World) : Prop where
  tables : w.tables.Fits w.log
  stages : ∀ call stage, w.calls call = some stage → stage.Fits w.tables w.log
  alone : ∀ c d stage stage' id, w.calls c = some stage → w.calls d = some stage' →
    stage.Holds id → stage'.Holds id → c = d
  lawful : Lawful w.log

structure Tables.Evolves (changed : Nat → Prop) (t t' : Tables) : Prop where
  nextId : t.nextId ≤ t'.nextId
  nextHash : t.nextHash ≤ t'.nextHash
  row : ∀ s' ∈ t'.codes, (∃ s ∈ t.codes, s'.id = s.id ∧ s'.phoneNumber = s.phoneNumber ∧
      (s'.hash = s.hash ∨ t.nextHash ≤ s'.hash) ∧ (s'.purpose = s.purpose ∨ changed s'.id)) ∨
    t.nextId ≤ s'.id ∧ t.nextHash ≤ s'.hash

def Entry.Spares (stage : Stage) : Entry → Prop
  | .accepted _ h => ¬ stage.HoldsCode h
  | .returned gone => ∀ h ∈ gone, ¬ stage.HoldsCode h
  | _ => True

section Keeping

variable {t t' : Tables} {log : List Entry} {changed : Nat → Prop} {stage : Stage}
  {entry : Option Entry} {kind : Kind} {h : CodeHash}

theorem allowed_accepted_append (allowed : Entry.Allowed log (.accepted kind h))
    (spares : ∀ e ∈ entry, (∀ kind, e ≠ .accepted kind h) ∧ ∀ gone, e = .returned gone → h ∉ gone) :
    Entry.Allowed (log ++ entry.toList) (.accepted kind h) := by
  constructor
  · intro here
    rcases List.mem_append.mp here with old | new
    · exact allowed.1 old
    · exact (spares _ (Option.mem_toList.mp new)).1 kind rfl
  · intro gone here
    rcases List.mem_append.mp here with old | new
    · exact allowed.2 gone old
    · exact (spares _ (Option.mem_toList.mp new)).2 gone rfl

theorem Stage.Fits.mono (fits : stage.Fits t log) (evolves : t.Evolves changed t')
    (unchanged : ∀ id, stage.Holds id → ¬ changed id)
    (spares : ∀ e ∈ entry, e.Spares stage) : stage.Fits t' (log ++ entry.toList) := by
  have rows : ∀ {id : Nat} {number : Phone} {purpose : PhoneCodePurpose},
      stage.Holds id → id < t.nextId →
      (∀ s ∈ t.codes, s.id = id → s.phoneNumber = number ∧ s.purpose = purpose) →
      ∀ s ∈ t'.codes, s.id = id → s.phoneNumber = number ∧ s.purpose = purpose := by
    intro id number purpose holds small before s' here same
    rcases evolves.row s' here with ⟨s, there, sameId, phone, -, kept⟩ | ⟨new, -⟩
    · obtain ⟨number', purpose'⟩ := before s there (sameId.symm.trans same)
      rcases kept with kept | moved
      · exact ⟨phone.trans number', kept.trans purpose'⟩
      · exact absurd (same ▸ moved) (unchanged id holds)
    · omega
  have held : ∀ {h : CodeHash}, stage.HoldsCode h →
      ∀ e ∈ entry, (∀ kind, e ≠ .accepted kind h) ∧ ∀ gone, e = .returned gone → h ∉ gone := by
    intro h holds e here
    have spared := spares e here
    constructor
    · rintro kind rfl
      exact spared holds
    · rintro gone rfl listed
      exact spared h listed holds
  cases stage with
  | replacing row => exact Nat.lt_of_lt_of_le fits evolves.nextHash
  | deleting row => exact Nat.lt_of_lt_of_le fits evolves.nextHash
  | returning gone =>
    intro h here
    obtain ⟨small, absent⟩ := fits h here
    refine ⟨Nat.lt_of_lt_of_le small evolves.nextHash, fun s' there same => ?_⟩
    have same' : s'.hash = h.hash := congrArg CodeHash.hash same
    rcases evolves.row s' there with ⟨s, was, sameId, -, either, -⟩ | ⟨-, new⟩
    · rcases either with kept | new
      · refine absent s was ?_
        rw [← same, SentCode.phoneCodeHash, SentCode.phoneCodeHash, sameId, kept]
      · omega
    · omega
  | redeeming r row =>
    obtain ⟨proven, smallId, small, placed, allowed⟩ := fits
    exact ⟨proven.mono _, Nat.lt_of_lt_of_le smallId evolves.nextId,
      Nat.lt_of_lt_of_le small evolves.nextHash, rows rfl smallId placed,
      allowed_accepted_append allowed (held rfl)⟩
  | consuming r row =>
    obtain ⟨proven, smallId, small, placed, allowed⟩ := fits
    exact ⟨proven.mono _, Nat.lt_of_lt_of_le smallId evolves.nextId,
      Nat.lt_of_lt_of_le small evolves.nextHash, rows rfl smallId placed,
      allowed_accepted_append allowed (held rfl)⟩
  | lookingUp r => exact Proven.mono fits _
  | leaving r => exact Proven.mono fits _
  | checkingPhone r => exact Proven.mono fits _
  | creatingUser r => exact Proven.mono fits _
  | authorizing number keyId => exact Proven.mono fits _
  | _ => trivial

end Keeping

/-! ### What the statements do to the rows -/

namespace Tables

variable {t : Tables} {log : List Entry} {s s' row : SentCode} {number : Phone} {h : CodeHash}
  {purpose : Option PhoneCodePurpose} {id : Nat} {code now : Int}

theorem get_eq_some (found : t.get_ number h purpose = some s) :
    t.stored number h = some s ∧ s ∈ t.codes ∧ s.phoneCodeHash = h ∧ s.phoneNumber = number ∧
      s.used = false ∧ ∀ p, purpose = some p → s.purpose = p := by
  obtain ⟨stored, unused⟩ := Option.filter_eq_some_iff.mp found
  obtain ⟨here, same⟩ := Option.filter_eq_some_iff.mp stored
  obtain ⟨here, sameId⟩ := Table.get_eq_some_iff.mp here
  simp only [Bool.and_eq_true, beq_iff_eq, Bool.not_eq_true'] at same unused
  refine ⟨stored, here, ?_, same.2, unused.1, ?_⟩
  · rw [SentCode.phoneCodeHash, sameId, same.1]
  · rintro p rfl
    simpa using unused.2

theorem mem_save {change : SentCode → SentCode} (keeps : ∀ s, (change s).id = s.id)
    (here : s' ∈ (t.save id change keeps).codes) :
    ∃ s ∈ t.codes, (if s.id == id then change s else s) = s' := by
  have saved : s' ∈ t.codes.modify (fun s => s.id == id) change keeps := here
  exact Table.mem_modify.mp saved

theorem mem_replace (here : s' ∈ (t.replace id code now).codes) :
    ∃ s ∈ t.codes, s'.id = s.id ∧ s'.phoneNumber = s.phoneNumber ∧ s'.purpose = s.purpose ∧
      s'.used = s.used ∧ (s' = s ∧ s.id ≠ id ∨ s'.hash = t.nextHash) := by
  have saved : s' ∈ t.codes.modify (fun s => s.id == id) (fun s => { s with
      code := code, hash := t.nextHash, expiresAt := SentCode.genExpiresAt now }) fun _ => rfl :=
    here
  obtain ⟨s, there, rfl⟩ := Table.mem_modify.mp saved
  refine ⟨s, there, ?_⟩
  split
  · exact ⟨rfl, rfl, rfl, rfl, .inr rfl⟩
  · rename_i other
    exact ⟨rfl, rfl, rfl, rfl, .inl ⟨rfl, fun same => other (beq_iff_eq.mpr same)⟩⟩

theorem mem_delete : s' ∈ (t.delete id).codes ↔ s' ∈ t.codes ∧ s'.id ≠ id := by
  have kept : s' ∈ (t.delete id).codes ↔ s' ∈ t.codes ∧ (s'.id == id) = false := Table.mem_remove
  rw [kept, beq_eq_false_iff_ne]

variable (t) in
theorem evolves_refl : t.Evolves (fun _ => False) t where
  nextId := Nat.le_refl _
  nextHash := Nat.le_refl _
  row s' here := .inl ⟨s', here, rfl, rfl, .inl rfl, .inl rfl⟩

theorem evolves_delete : t.Evolves (fun _ => False) (t.delete id) where
  nextId := Nat.le_refl _
  nextHash := Nat.le_refl _
  row s' here := .inl ⟨s', (mem_delete.mp here).1, rfl, rfl, .inl rfl, .inl rfl⟩

theorem evolves_save {change : SentCode → SentCode} {keeps : ∀ s, (change s).id = s.id}
    (phone : ∀ s, (change s).phoneNumber = s.phoneNumber) (hash : ∀ s, (change s).hash = s.hash) :
    t.Evolves (fun i => id = i) (t.save id change keeps) where
  nextId := Nat.le_refl _
  nextHash := Nat.le_refl _
  row s' here := by
    obtain ⟨s, there, rfl⟩ := mem_save keeps here
    refine .inl ⟨s, there, ?_⟩
    split
    · rename_i same
      exact ⟨keeps s, phone s, .inl (hash s), .inr ((keeps s).trans (beq_iff_eq.mp same)).symm⟩
    · exact ⟨rfl, rfl, .inl rfl, .inl rfl⟩

theorem evolves_replace : t.Evolves (fun _ => False) (t.replace id code now) where
  nextId := Nat.le_refl _
  nextHash := Nat.le_succ _
  row s' here := by
    obtain ⟨s, there, sameId, phone, purpose, -, either⟩ := mem_replace here
    refine .inl ⟨s, there, sameId, phone, ?_, .inl purpose⟩
    rcases either with ⟨rfl, -⟩ | new
    · exact .inl rfl
    · exact .inr (Nat.le_of_eq new.symm)

namespace Fits

variable (fits : t.Fits log)

include fits

theorem mem_issue : s ∈ (t.issue number code now).codes ↔ s ∈ t.codes ∨
    s = ⟨t.nextId, number, code, t.nextHash, SentCode.genExpiresAt now, false, .signin⟩ :=
  Table.mem_insert (Table.get_eq_none_iff.mpr fun s here => Nat.ne_of_lt (fits.ids s here))

theorem evolves_issue : t.Evolves (fun _ => False) (t.issue number code now) where
  nextId := Nat.le_succ _
  nextHash := Nat.le_succ _
  row s' here := by
    rcases fits.mem_issue.mp here with old | rfl
    · exact .inl ⟨s', old, rfl, rfl, .inl rfl, .inl rfl⟩
    · exact .inr ⟨Nat.le_refl _, Nat.le_refl _⟩

theorem notMem_of_new (new : s.hash = t.nextHash) (kind : Kind) :
    .accepted kind s.phoneCodeHash ∉ log := by
  intro here
  have small : s.hash < t.nextHash := fits.accepted kind s.phoneCodeHash here
  omega

theorem issue : (t.issue number code now).Fits log := by
  constructor
  · intro s here
    rcases fits.mem_issue.mp here with old | rfl
    · exact Nat.lt_succ_of_lt (fits.ids s old)
    · exact Nat.lt_succ_self _
  · intro s here
    rcases fits.mem_issue.mp here with old | rfl
    · exact Nat.lt_succ_of_lt (fits.hashes s old)
    · exact Nat.lt_succ_self _
  · exact fun kind h here => Nat.lt_succ_of_lt (fits.accepted kind h here)
  · exact fun gone here h listed => Nat.lt_succ_of_lt (fits.returned gone here h listed)
  · intro s here signin
    rcases fits.mem_issue.mp here with old | rfl
    · exact fits.signin s old signin
    · exact fits.notMem_of_new rfl
  · intro s here signup
    rcases fits.mem_issue.mp here with old | rfl
    · exact fits.signup s old signup
    · cases signup
  · intro s here unused
    rcases fits.mem_issue.mp here with old | rfl
    · exact fits.unused s old unused
    · exact fits.notMem_of_new rfl .signUp
  · intro gone here h listed s there same
    rcases fits.mem_issue.mp there with old | rfl
    · exact fits.gone gone here h listed s old same
    · have small := fits.returned gone here h listed
      have eq : t.nextHash = h.hash := congrArg CodeHash.hash same
      omega

theorem delete : (t.delete id).Fits log := by
  have kept : ∀ s ∈ (t.delete id).codes, s ∈ t.codes := fun s here => (mem_delete.mp here).1
  exact ⟨fun s here => fits.ids s (kept s here), fun s here => fits.hashes s (kept s here),
    fits.accepted, fits.returned, fun s here => fits.signin s (kept s here),
    fun s here => fits.signup s (kept s here), fun s here => fits.unused s (kept s here),
    fun gone here h listed s there => fits.gone gone here h listed s (kept s there)⟩

theorem replace : (t.replace id code now).Fits log := by
  constructor
  · intro s' here
    obtain ⟨s, there, sameId, -⟩ := mem_replace here
    exact sameId ▸ fits.ids s there
  · intro s' here
    obtain ⟨s, there, -, -, -, -, ⟨rfl, -⟩ | new⟩ := mem_replace here
    · exact Nat.lt_succ_of_lt (fits.hashes s' there)
    · exact Nat.lt_succ_of_le (Nat.le_of_eq new)
  · exact fun kind h here => Nat.lt_succ_of_lt (fits.accepted kind h here)
  · exact fun gone here h listed => Nat.lt_succ_of_lt (fits.returned gone here h listed)
  · intro s' here signin
    obtain ⟨s, there, -, -, purpose, -, ⟨rfl, -⟩ | new⟩ := mem_replace here
    · exact fits.signin s' there signin
    · exact fits.notMem_of_new new
  · intro s' here signup
    obtain ⟨s, there, -, phone, purpose, -⟩ := mem_replace here
    exact phone ▸ fits.signup s there (purpose ▸ signup)
  · intro s' here unused
    obtain ⟨s, there, -, -, -, used, ⟨rfl, -⟩ | new⟩ := mem_replace here
    · exact fits.unused s' there unused
    · exact fits.notMem_of_new new .signUp
  · intro gone here h listed s' there same
    obtain ⟨s, was, -, -, -, -, ⟨rfl, -⟩ | new⟩ := mem_replace there
    · exact fits.gone gone here h listed s' was same
    · have small := fits.returned gone here h listed
      have eq : s'.hash = h.hash := congrArg CodeHash.hash same
      omega

theorem append_plain (entry : Option Entry) (accepted : ∀ kind h, entry ≠ some (.accepted kind h))
    (returned : ∀ gone, entry ≠ some (.returned gone)) : t.Fits (log ++ entry.toList) := by
  have oldA : ∀ {kind h}, .accepted kind h ∈ log ++ entry.toList → .accepted kind h ∈ log := by
    intro kind h here
    rcases List.mem_append.mp here with old | new
    · exact old
    · exact absurd (Option.mem_toList.mp new) (accepted kind h)
  have oldR : ∀ {gone}, .returned gone ∈ log ++ entry.toList → .returned gone ∈ log := by
    intro gone here
    rcases List.mem_append.mp here with old | new
    · exact old
    · exact absurd (Option.mem_toList.mp new) (returned gone)
  exact ⟨fits.ids, fits.hashes, fun kind h here => fits.accepted kind h (oldA here),
    fun gone here => fits.returned gone (oldR here),
    fun s here signin kind listed => fits.signin s here signin kind (oldA listed),
    fun s here signup => (fits.signup s here signup).mono _,
    fun s here unused listed => fits.unused s here unused (oldA listed),
    fun gone here => fits.gone gone (oldR here)⟩

theorem accept {kind : Kind} {change : SentCode → SentCode}
    {keeps : ∀ s, (change s).id = s.id} (phone : ∀ s, (change s).phoneNumber = s.phoneNumber)
    (hash : ∀ s, (change s).hash = s.hash) (small : row.hash < t.nextHash)
    (after : ∀ s ∈ t.codes, s.id = row.id → (change s).purpose = .signup ∧
      Proven log s.phoneNumber ∧ ((change s).used = false → kind = .signIn ∧ s.purpose = .signin)) :
    (t.save row.id change keeps).Fits (log ++ [.accepted kind row.phoneCodeHash]) := by
  have saved : ∀ s' ∈ (t.save row.id change keeps).codes, ∃ s ∈ t.codes,
      s.id = row.id ∧ s' = change s ∨ s.id ≠ row.id ∧ s' = s := by
    intro s' here
    obtain ⟨s, there, rfl⟩ := mem_save keeps here
    refine ⟨s, there, ?_⟩
    split
    · rename_i same
      exact .inl ⟨beq_iff_eq.mp same, rfl⟩
    · rename_i other
      exact .inr ⟨fun same => other (beq_iff_eq.mpr same), rfl⟩
  have old : ∀ {e : Entry}, e ∈ log ++ [.accepted kind row.phoneCodeHash] →
      e ∈ log ∨ e = .accepted kind row.phoneCodeHash := by
    intro e here
    rcases List.mem_append.mp here with old | new
    · exact .inl old
    · exact .inr (List.mem_singleton.mp new)
  have returned : ∀ {gone}, .returned gone ∈ log ++ [.accepted kind row.phoneCodeHash] →
      .returned gone ∈ log := by
    intro gone here
    rcases old here with before | new
    · exact before
    · cases new
  have same : ∀ s, (change s).phoneCodeHash = s.phoneCodeHash := by
    intro s
    rw [SentCode.phoneCodeHash, SentCode.phoneCodeHash, keeps, hash]
  have other : ∀ {kind' : Kind} {s : SentCode}, s.id ≠ row.id →
      .accepted kind' s.phoneCodeHash ∉ log →
      .accepted kind' s.phoneCodeHash ∉ log ++ [.accepted kind row.phoneCodeHash] := by
    intro kind' s apart none here
    rcases old here with before | new
    · exact none before
    · injection new with _ eq
      exact apart (congrArg CodeHash.id eq)
  constructor
  · intro s' here
    obtain ⟨s, there, ⟨-, rfl⟩ | ⟨-, rfl⟩⟩ := saved s' here
    · exact (keeps s).symm ▸ fits.ids s there
    · exact fits.ids s' there
  · intro s' here
    obtain ⟨s, there, ⟨-, rfl⟩ | ⟨-, rfl⟩⟩ := saved s' here
    · exact (hash s).symm ▸ fits.hashes s there
    · exact fits.hashes s' there
  · intro kind' h here
    rcases old here with before | new
    · exact fits.accepted kind' h before
    · cases new
      exact small
  · exact fun gone here => fits.returned gone (returned here)
  · intro s' here signin kind'
    obtain ⟨s, there, ⟨at', rfl⟩ | ⟨apart, rfl⟩⟩ := saved s' here
    · rw [(after s there at').1] at signin
      cases signin
    · exact other apart (fits.signin s' there signin kind')
  · intro s' here signup
    obtain ⟨s, there, ⟨at', rfl⟩ | ⟨-, rfl⟩⟩ := saved s' here
    · rw [phone]
      exact (after s there at').2.1.mono _
    · exact (fits.signup s' there signup).mono _
  · intro s' here unused
    obtain ⟨s, there, ⟨at', rfl⟩ | ⟨apart, rfl⟩⟩ := saved s' here
    · obtain ⟨-, -, signIn⟩ := after s there at'
      obtain ⟨rfl, signin⟩ := signIn unused
      rw [same]
      intro listed
      rcases old listed with before | new
      · exact fits.signin s there signin .signUp before
      · cases new
    · exact other apart (fits.unused s' there unused)
  · intro gone here h listed s' there eq
    obtain ⟨s, was, ⟨-, rfl⟩ | ⟨-, rfl⟩⟩ := saved s' there
    · exact fits.gone gone (returned here) h listed s was ((same s).symm.trans eq)
    · exact fits.gone gone (returned here) h listed s' was eq

theorem append_returned {gone : List CodeHash} (ended : ∀ h ∈ gone,
    h.hash < t.nextHash ∧ ∀ s ∈ t.codes, s.phoneCodeHash ≠ h) :
    t.Fits (log ++ [.returned gone]) := by
  have old : ∀ {e : Entry}, e ∈ log ++ [.returned gone] → e ∈ log ∨ e = .returned gone := by
    intro e here
    rcases List.mem_append.mp here with old | new
    · exact .inl old
    · exact .inr (List.mem_singleton.mp new)
  have accepted : ∀ {kind h}, .accepted kind h ∈ log ++ [.returned gone] →
      .accepted kind h ∈ log := by
    intro kind h here
    rcases old here with before | new
    · exact before
    · cases new
  have returned : ∀ {gone'}, .returned gone' ∈ log ++ [.returned gone] → ∀ h ∈ gone',
      h.hash < t.nextHash ∧ ∀ s ∈ t.codes, s.phoneCodeHash ≠ h := by
    intro gone' here h listed
    rcases old here with before | new
    · exact ⟨fits.returned gone' before h listed, fits.gone gone' before h listed⟩
    · cases new
      exact ended h listed
  exact ⟨fits.ids, fits.hashes, fun kind h here => fits.accepted kind h (accepted here),
    fun gone' here h listed => (returned here h listed).1,
    fun s here signin kind listed => fits.signin s here signin kind (accepted listed),
    fun s here signup => (fits.signup s here signup).mono _,
    fun s here unused listed => fits.unused s here unused (accepted listed),
    fun gone' here h listed => (returned here h listed).2⟩

end Fits

end Tables

/-! ### What the statements do to everything -/

/-- A statement of a request keeps what holds; it changes the purpose of no row but these. -/
structure Move.Keeps (changed : Nat → Prop) (t : Tables) (log : List Entry) (m : Move) : Prop where
  evolves : t.Evolves changed m.tables
  tables : m.tables.Fits (log ++ m.entry.toList)
  next : ∀ stage, m.next = some stage → stage.Fits m.tables (log ++ m.entry.toList)
  allowed : ∀ e ∈ m.entry, e.Allowed log

section Moves

variable {t : Tables} {log : List Entry} {changed : Nat → Prop} {m : Move} {stage : Stage}
  {now code : Int}

theorem Tables.Evolves.weaken {t' : Tables} (evolves : t.Evolves (fun _ => False) t') :
    t.Evolves changed t' where
  nextId := evolves.nextId
  nextHash := evolves.nextHash
  row s' here := by
    rcases evolves.row s' here with ⟨s, there, id, phone, hash, purpose⟩ | new
    · exact .inl ⟨s, there, id, phone, hash, .inl (purpose.resolve_right fun no => no)⟩
    · exact .inr new

theorem Move.Keeps.plain (fits : t.Fits log) (codes : m.tables.codes = t.codes)
    (nextId : m.tables.nextId = t.nextId) (nextHash : m.tables.nextHash = t.nextHash)
    (accepted : ∀ kind h, m.entry ≠ some (.accepted kind h))
    (returned : ∀ gone, m.entry ≠ some (.returned gone))
    (allowed : ∀ e ∈ m.entry, e.Allowed log)
    (next : ∀ stage, m.next = some stage → stage.Fits t log) : m.Keeps changed t log := by
  obtain ⟨⟨_, users, authorizations, _, _⟩, next', entry⟩ := m
  subst codes nextId nextHash
  have evolves : ∀ changed, t.Evolves changed
      ⟨t.codes, users, authorizations, t.nextId, t.nextHash⟩ := fun changed =>
    ⟨Nat.le_refl _, Nat.le_refl _, fun s here => .inl ⟨s, here, rfl, rfl, .inl rfl, .inl rfl⟩⟩
  have spared : ∀ stage, ∀ e ∈ entry, e.Spares stage := by
    intro stage e here
    cases e with
    | accepted kind h => exact absurd here (accepted kind h)
    | returned gone => exact absurd here (returned gone)
    | _ => trivial
  have kept := fits.append_plain entry accepted returned
  refine ⟨evolves changed, ?_, fun stage here => ?_, allowed⟩
  · exact ⟨kept.ids, kept.hashes, kept.accepted, kept.returned, kept.signin, kept.signup,
      kept.unused, kept.gone⟩
  · exact (next stage here).mono (evolves fun _ => False) (fun _ _ no => no) (spared stage)

theorem Move.Keeps.goesOn (fits : t.Fits log) (next : stage.Fits t log) :
    (t.goesOn stage).Keeps changed t log :=
  .plain fits rfl rfl rfl (fun _ _ none => by cases none) (fun _ none => by cases none)
    (fun _ none => by cases none) fun _ same => by cases same; exact next

theorem Move.Keeps.ends (fits : t.Fits log) : t.ends.Keeps changed t log :=
  .plain fits rfl rfl rfl (fun _ _ none => by cases none) (fun _ none => by cases none)
    (fun _ none => by cases none) fun _ none => by cases none

theorem Move.Keeps.of_tables {t' : Tables} (evolves : t.Evolves (fun _ => False) t')
    (fits : t'.Fits log) {next : Option Stage}
    (goes : ∀ stage, next = some stage → stage.Fits t' log) :
    (Move.mk t' next none).Keeps changed t log :=
  ⟨evolves.weaken, by rw [Option.toList_none, List.append_nil]; exact fits,
    fun stage here => by rw [Option.toList_none, List.append_nil]; exact goes stage here,
    fun _ none => by cases none⟩

theorem Move.Keeps.checkRaise (fits : t.Fits log) {row : Option SentCode}
    {next : SentCode → Stage} (goes : ∀ s, row = some s → s.isExpired now = false →
      (next s).Fits t log) : (t.checkRaise row now next).Keeps changed t log := by
  unfold Tables.checkRaise
  split
  · exact .ends fits
  · rename_i s
    cases expired : s.isExpired now with
    | true => exact .goesOn fits trivial
    | false => exact .goesOn fits (goes s rfl expired)

theorem Tables.Fits.endsOf (fits : t.Fits log) {row : SentCode} (small : row.hash < t.nextHash) :
    ∀ h ∈ t.endsOf row, h.hash < t.nextHash ∧
      (h = row.phoneCodeHash ∨ ∃ s ∈ t.codes, s.id = row.id ∧ s.phoneCodeHash = h) := by
  intro h here
  rcases List.mem_cons.mp here with rfl | there
  · exact ⟨small, .inl rfl⟩
  · obtain ⟨s, found, rfl⟩ := Option.map_eq_some_iff.mp (Option.mem_toList.mp there)
    obtain ⟨listed, same⟩ := Table.get_eq_some_iff.mp found
    exact ⟨fits.hashes s listed, .inr ⟨s, listed, same, rfl⟩⟩

/-- `ResendCode` ends the code that it has read and the one that it overwrites. -/
theorem keeps_replacing (fits : t.Fits log) {row : SentCode} (small : row.hash < t.nextHash) :
    ((t.replace row.id code now).goesOn (.returning (t.endsOf row))).Keeps changed t log := by
  refine .of_tables Tables.evolves_replace fits.replace fun stage same => ?_
  cases same
  intro h here
  obtain ⟨older, which⟩ := fits.endsOf small h here
  refine ⟨Nat.lt_succ_of_lt older, fun s' there eq => ?_⟩
  have hash : s'.hash = h.hash := congrArg CodeHash.hash eq
  have id : s'.id = row.id := by
    have same : s'.id = h.id := congrArg CodeHash.id eq
    rcases which with rfl | ⟨s, -, sameId, rfl⟩
    · exact same
    · exact same.trans sameId
  have new : s'.hash = t.nextHash := by
    obtain ⟨s, -, -, -, -, -, ⟨rfl, other⟩ | new⟩ := Tables.mem_replace there
    · exact absurd id other
    · exact new
  omega

theorem keeps_deleting (fits : t.Fits log) {row : SentCode} (small : row.hash < t.nextHash) :
    ((t.delete row.id).goesOn (.returning (t.endsOf row))).Keeps changed t log := by
  refine .of_tables Tables.evolves_delete fits.delete fun stage same => ?_
  cases same
  intro h here
  obtain ⟨older, which⟩ := fits.endsOf small h here
  refine ⟨older, fun s' there eq => (Tables.mem_delete.mp there).2 ?_⟩
  have same : s'.id = h.id := congrArg CodeHash.id eq
  rcases which with rfl | ⟨s, -, sameId, rfl⟩
  · exact same
  · exact same.trans sameId

theorem fits_redeeming (fits : t.Fits log) {r : SignIn} {s : SentCode}
    (found : t.get_ r.phoneNumber r.phoneCodeHash (some .signin) = some s)
    (code : s.code = r.phoneCode) (current : s.isExpired now = false)
    (told : .compared r (t.stored r.phoneNumber r.phoneCodeHash) now ∈ log) :
    (Stage.redeeming r s).Fits t log := by
  obtain ⟨stored, here, same, phone, unused, purpose⟩ := Tables.get_eq_some found
  have now' : now ≤ s.expiresAt := by
    rw [SentCode.isExpired, decide_eq_false_iff_not] at current
    omega
  have only : ∀ s' ∈ t.codes, s'.id = s.id → s' = s := fun s' there => Table.eq_of_key_eq there here
  refine ⟨⟨r, _, now, told, rfl, s, stored, code, now', unused⟩, fits.ids s here,
    fits.hashes s here, ?_, fits.signin s here (purpose _ rfl) .signIn, ?_⟩
  · intro s' there sameId
    obtain rfl := only s' there sameId
    exact ⟨phone, purpose _ rfl⟩
  · exact fun gone ended listed => fits.gone gone ended _ listed s here rfl

theorem fits_consuming (fits : t.Fits log) {r : SignUp} {s : SentCode}
    (found : t.get_ r.phoneNumber r.phoneCodeHash (some .signup) = some s) :
    (Stage.consuming r s).Fits t log := by
  obtain ⟨-, here, -, phone, unused, purpose⟩ := Tables.get_eq_some found
  have only : ∀ s' ∈ t.codes, s'.id = s.id → s' = s := fun s' there => Table.eq_of_key_eq there here
  refine ⟨phone ▸ fits.signup s here (purpose _ rfl), fits.ids s here, fits.hashes s here, ?_,
    fits.unused s here unused, fun gone ended listed => fits.gone gone ended _ listed s here rfl⟩
  intro s' there sameId
  obtain rfl := only s' there sameId
  exact ⟨phone, purpose _ rfl⟩

theorem check_eq_some {r : SignIn} (next : t.check r now = some stage) :
    (∃ s, stage = .expiring s) ∨ ∃ s, stage = .redeeming r s ∧ s.code = r.phoneCode ∧
      s.isExpired now = false ∧
      t.get_ r.phoneNumber r.phoneCodeHash (some .signin) = some s := by
  unfold Tables.check at next
  split at next
  · cases next
  · rename_i s found
    split at next
    · cases next
    · rename_i right
      cases expired : s.isExpired now with
      | true =>
        rw [expired, if_pos rfl] at next
        exact .inl ⟨s, (Option.some.inj next).symm⟩
      | false =>
        rw [expired, if_neg Bool.false_ne_true] at next
        exact .inr ⟨s, (Option.some.inj next).symm, not_not.mp right, expired, found⟩

theorem keeps_compare (fits : t.Fits log) (r : SignIn) : (t.compare r now).Keeps changed t log := by
  have kept : t.Fits (log ++ [.compared r (t.stored r.phoneNumber r.phoneCodeHash) now]) :=
    fits.append_plain (some _) (fun _ _ eq => by cases eq) fun _ eq => by cases eq
  refine ⟨(Tables.evolves_refl t).weaken, kept, fun stage next => ?_, fun e here => ?_⟩
  · rcases check_eq_some next with ⟨s, rfl⟩ | ⟨s, rfl, code, current, found⟩
    · trivial
    · exact fits_redeeming kept found code current
        (List.mem_append_right log List.mem_cons_self)
  · cases here
    trivial

theorem Stage.keeps_advance (fits : t.Fits log) (own : stage.Fits t log) :
    (stage.advance t now code).Keeps stage.Holds t log := by
  cases stage with
  | sending number => exact .of_tables fits.evolves_issue fits.issue fun _ none => by cases none
  | resending number h =>
    refine .checkRaise fits fun s found _ => ?_
    exact fits.hashes s (Tables.get_eq_some found).2.1
  | replacing row => exact keeps_replacing fits own
  | cancelling number h =>
    refine .checkRaise fits fun s found _ => ?_
    exact fits.hashes s (Tables.get_eq_some found).2.1
  | deleting row => exact keeps_deleting fits own
  | returning gone =>
    refine ⟨(Tables.evolves_refl t).weaken, fits.append_returned own, ?_, ?_⟩
    · intro stage none
      cases none
    · intro e here
      cases here
      trivial
  | expiring row => exact .of_tables Tables.evolves_delete fits.delete fun _ none => by cases none
  | signingIn r => exact keeps_compare fits r
  | redeeming r row =>
    obtain ⟨proven, -, small, placed, allowed⟩ := own
    refine ⟨?_, fits.accept (fun _ => rfl) (fun _ => rfl) small ?_, ?_, ?_⟩
    · exact Tables.evolves_save (fun _ => rfl) fun _ => rfl
    · intro s here same
      obtain ⟨phone, signin⟩ := placed s here same
      exact ⟨rfl, phone ▸ proven, fun _ => ⟨rfl, signin⟩⟩
    · intro stage next
      cases next
      exact proven.mono _
    · intro e here
      cases here
      exact allowed
  | lookingUp r =>
    unfold Stage.advance
    dsimp only
    split
    · exact .goesOn fits own
    · exact .ends fits
  | leaving r =>
    refine .plain fits rfl rfl rfl (fun _ _ none => by cases none) (fun _ none => by cases none)
      (fun _ none => by cases none) fun stage next => ?_
    cases next
    exact own
  | signingUp r => exact .checkRaise fits fun s found _ => fits_consuming fits found
  | consuming r row =>
    obtain ⟨proven, -, small, placed, allowed⟩ := own
    refine ⟨?_, fits.accept (fun _ => rfl) (fun _ => rfl) small ?_, ?_, ?_⟩
    · exact Tables.evolves_save (fun _ => rfl) fun _ => rfl
    · intro s here same
      obtain ⟨phone, signup⟩ := placed s here same
      exact ⟨signup, phone ▸ proven, fun used => by cases used⟩
    · intro stage next
      cases next
      exact proven.mono _
    · intro e here
      cases here
      exact allowed
  | checkingPhone r =>
    unfold Stage.advance
    dsimp only
    split
    · exact .ends fits
    · exact .goesOn fits own
  | creatingUser r =>
    unfold Stage.advance
    dsimp only
    split
    · exact .ends fits
    · refine .plain fits rfl rfl rfl (fun _ _ none => by cases none) (fun _ none => by cases none)
        (fun e here => ?_) fun stage next => ?_
      · cases here
        exact own
      · cases next
        exact own
  | authorizing number keyId =>
    unfold Stage.advance
    dsimp only
    split
    · exact .ends fits
    · refine .plain fits rfl rfl rfl (fun _ _ none => by cases none) (fun _ none => by cases none)
        (fun e here => ?_) fun stage next => ?_
      · cases here
        exact own
      · cases next

end Moves

/-! ### Runs -/

theorem Stage.holds_of_holdsCode {stage : Stage} {h : CodeHash} (holds : stage.HoldsCode h) :
    stage.Holds h.id := by
  cases stage with
  | redeeming r row => exact congrArg CodeHash.id holds
  | consuming r row => exact congrArg CodeHash.id holds
  | _ => exact holds

section Entries

variable {t : Tables} {now code : Int} {stage : Stage}

theorem entry_checkRaise (row : Option SentCode) (next : SentCode → Stage) :
    (t.checkRaise row now next).entry = none := by
  unfold Tables.checkRaise
  split
  · rfl
  · split <;> rfl

theorem next_checkRaise {row : Option SentCode} {next : SentCode → Stage}
    (goes : (t.checkRaise row now next).next = some stage) : (∃ s, stage = .expiring s) ∨
      ∃ s, row = some s ∧ s.isExpired now = false ∧ stage = next s := by
  unfold Tables.checkRaise at goes
  split at goes
  · cases goes
  · rename_i s
    cases expired : s.isExpired now with
    | true =>
      rw [expired, if_pos rfl] at goes
      exact .inl ⟨s, (Option.some.inj goes).symm⟩
    | false =>
      rw [expired, if_neg Bool.false_ne_true] at goes
      exact .inr ⟨s, rfl, expired, (Option.some.inj goes).symm⟩

theorem Stage.holds_next {next : Stage} {id : Nat}
    (goes : (stage.advance t now code).next = some next) (holds : next.Holds id) :
    (∃ r s, stage = .signingIn r ∧ s.id = id ∧ s.code = r.phoneCode ∧ s.isExpired now = false ∧
      t.get_ r.phoneNumber r.phoneCodeHash (some .signin) = some s) ∨
    ∃ r s, stage = .signingUp r ∧ s.id = id ∧ s.isExpired now = false ∧
      t.get_ r.phoneNumber r.phoneCodeHash (some .signup) = some s := by
  cases stage with
  | signingIn r =>
    rcases check_eq_some goes with ⟨s, rfl⟩ | ⟨s, rfl, code, current, found⟩
    · cases holds
    · exact .inl ⟨r, s, rfl, holds, code, current, found⟩
  | signingUp r =>
    rcases next_checkRaise goes with ⟨s, rfl⟩ | ⟨s, found, current, rfl⟩
    · cases holds
    · exact .inr ⟨r, s, rfl, holds, current, found⟩
  | resending number h =>
    rcases next_checkRaise goes with ⟨s, rfl⟩ | ⟨s, -, -, rfl⟩ <;> cases holds
  | cancelling number h =>
    rcases next_checkRaise goes with ⟨s, rfl⟩ | ⟨s, -, -, rfl⟩ <;> cases holds
  | lookingUp r =>
    unfold Stage.advance at goes
    dsimp only at goes
    split at goes <;> cases goes
    cases holds
  | checkingPhone r =>
    unfold Stage.advance at goes
    dsimp only at goes
    split at goes <;> cases goes
    cases holds
  | creatingUser r =>
    unfold Stage.advance at goes
    dsimp only at goes
    split at goes <;> cases goes
    cases holds
  | authorizing number keyId =>
    unfold Stage.advance at goes
    dsimp only at goes
    split at goes <;> cases goes
  | _ =>
    cases goes
    try cases holds

/-- Only a save tells of a code that is accepted, and only the end of a request of one that ends. -/
def Entry.Of (stage : Stage) : Entry → Prop
  | .accepted _ h => stage.HoldsCode h
  | .returned gone => stage = .returning gone
  | _ => True

theorem Stage.entry_advance {e : Entry} (here : (stage.advance t now code).entry = some e) :
    e.Of stage := by
  cases stage with
  | redeeming r row =>
    cases here
    exact rfl
  | consuming r row =>
    cases here
    exact rfl
  | returning gone =>
    cases here
    exact rfl
  | signingIn r =>
    cases here
    trivial
  | resending number h =>
    rw [Stage.advance, entry_checkRaise] at here
    cases here
  | cancelling number h =>
    rw [Stage.advance, entry_checkRaise] at here
    cases here
  | signingUp r =>
    rw [Stage.advance, entry_checkRaise] at here
    cases here
  | lookingUp r =>
    unfold Stage.advance at here
    dsimp only at here
    split at here <;> cases here
  | checkingPhone r =>
    unfold Stage.advance at here
    dsimp only at here
    split at here <;> cases here
  | creatingUser r =>
    unfold Stage.advance at here
    dsimp only at here
    split at here
    · cases here
    · cases here
      trivial
  | authorizing number keyId =>
    unfold Stage.advance at here
    dsimp only at here
    split at here
    · cases here
    · cases here
      trivial
  | _ => cases here

end Entries

namespace World

variable {banned : Phone → Bool} {w after : World} {call : Nat} {move : Move}
  {changed : Nat → Prop}

theorem calls_apply (other : Nat) : (w.apply call move).calls other =
    if other = call then move.next else w.calls other := Function.update_apply _ _ _ _

theorem Inv.apply (inv : w.Inv) (keeps : move.Keeps changed w.tables w.log)
    (others : ∀ other stage, other ≠ call → w.calls other = some stage →
      (∀ id, stage.Holds id → ¬ changed id) ∧ ∀ e ∈ move.entry, e.Spares stage)
    (free : ∀ stage id, move.next = some stage → stage.Holds id → w.Free id) :
    (w.apply call move).Inv := by
  have own : ∀ {other stage}, (w.apply call move).calls other = some stage →
      other = call ∧ move.next = some stage ∨ other ≠ call ∧ w.calls other = some stage := by
    intro other stage here
    rw [calls_apply] at here
    by_cases same : other = call
    · rw [if_pos same] at here
      exact .inl ⟨same, here⟩
    · rw [if_neg same] at here
      exact .inr ⟨same, here⟩
  constructor
  · exact keeps.tables
  · intro other stage here
    rcases own here with ⟨-, next⟩ | ⟨apart, before⟩
    · exact keeps.next stage next
    · obtain ⟨unchanged, spares⟩ := others other stage apart before
      exact (inv.stages other stage before).mono keeps.evolves unchanged spares
  · intro c d stage stage' id hereC hereD holds holds'
    rcases own hereC with ⟨rfl, next⟩ | ⟨-, before⟩
    · rcases own hereD with ⟨rfl, -⟩ | ⟨-, before'⟩
      · rfl
      · exact absurd holds' (free stage id next holds d stage' before')
    · rcases own hereD with ⟨rfl, next⟩ | ⟨-, before'⟩
      · exact absurd holds (free stage' id next holds' c stage before)
      · exact inv.alone c d stage stage' id before before' holds holds'
  · show Lawful (w.log ++ move.entry.toList)
    cases told : move.entry with
    | none =>
      rw [Option.toList_none, List.append_nil]
      exact inv.lawful
    | some e => exact inv.lawful.concat (keeps.allowed e told)

/-- A request that checks a row successfully finds it free. -/
theorem free_of_apart {now code : Int} {stage next : Stage} {id : Nat}
    (apart : w.Apart (.go call now code)) (here : w.calls call = some stage)
    (goes : (stage.advance w.tables now code).next = some next) (holds : next.Holds id) :
    w.Free id := by
  rw [Apart, here] at apart
  rcases Stage.holds_next goes holds with
    ⟨r, s, rfl, rfl, code, current, found⟩ | ⟨r, s, rfl, rfl, current, found⟩
  · exact apart s found code current
  · exact apart s found current

theorem start_cases (banned : Phone → Bool) (t : Tables) (r : Request) : r.start banned t = t.ends ∨
    ∃ stage, r.start banned t = t.goesOn stage ∧ (∀ log, stage.Fits t log) ∧
      ∀ id, ¬ stage.Holds id := by
  cases r with
  | sendCode number =>
    cases barred : banned number with
    | true => exact .inl (if_pos barred)
    | false =>
      exact .inr ⟨.sending number, if_neg (Bool.eq_false_iff.mp barred), fun _ => trivial,
        fun _ holds => holds⟩
  | resendCode number h =>
    cases barred : banned number with
    | true => exact .inl (if_pos barred)
    | false =>
      exact .inr ⟨.resending number h, if_neg (Bool.eq_false_iff.mp barred), fun _ => trivial,
        fun _ holds => holds⟩
  | cancelCode number h =>
    exact .inr ⟨.cancelling number h, rfl, fun _ => trivial, fun _ holds => holds⟩
  | signIn r => exact .inr ⟨.signingIn r, rfl, fun _ => trivial, fun _ holds => holds⟩
  | signUp r =>
    cases barred : banned r.phoneNumber with
    | true => exact .inl (if_pos barred)
    | false =>
      exact .inr ⟨.signingUp r, if_neg (Bool.eq_false_iff.mp barred), fun _ => trivial,
        fun _ holds => holds⟩

theorem Inv.ends (inv : w.Inv) : (w.apply call w.tables.ends).Inv := by
  have keeps : w.tables.ends.Keeps (fun _ => False) w.tables w.log := .ends inv.tables
  refine inv.apply keeps (fun _ _ _ _ => ⟨fun _ _ no => no, fun _ none => by cases none⟩) ?_
  intro stage id none
  cases none

theorem Inv.goesOn {stage : Stage} (inv : w.Inv) (fits : stage.Fits w.tables w.log)
    (nothing : ∀ id, ¬ stage.Holds id) : (w.apply call (w.tables.goesOn stage)).Inv := by
  have keeps : (w.tables.goesOn stage).Keeps (fun _ => False) w.tables w.log :=
    .goesOn inv.tables fits
  refine inv.apply keeps (fun _ _ _ _ => ⟨fun _ _ no => no, fun _ none => by cases none⟩) ?_
  intro stage' id same holds
  cases same
  exact absurd holds (nothing id)

theorem Inv.step {e : Event} (inv : w.Inv) (apart : w.Apart e)
    (happens : step banned w e = some after) : after.Inv := by
  cases e with
  | start call r =>
    rw [World.step] at happens
    split at happens
    · obtain rfl := Option.some.inj happens
      rcases start_cases banned w.tables r with same | ⟨stage, same, fits, nothing⟩
      · rw [same]
        exact inv.ends
      · rw [same]
        exact inv.goesOn (fits w.log) nothing
    · cases happens
  | go call now code =>
    obtain ⟨stage, here, rfl⟩ := Option.map_eq_some_iff.mp happens
    refine inv.apply (stage.keeps_advance inv.tables (inv.stages call stage here)) ?_ ?_
    · intro other stage' different before
      have away : ∀ id, stage'.Holds id → ¬ stage.Holds id := fun id holds holds' =>
        different (inv.alone other call stage' stage id before here holds holds')
      refine ⟨away, fun e told => ?_⟩
      have of := Stage.entry_advance told
      cases e with
      | accepted kind h =>
        exact fun holds => away h.id (Stage.holds_of_holdsCode holds)
          (Stage.holds_of_holdsCode of)
      | returned gone =>
        obtain rfl : stage = .returning gone := of
        rw [Apart, here] at apart
        exact apart other stage' before
      | _ => trivial
    · exact fun next id goes holds => free_of_apart apart here goes holds
  | stop call =>
    obtain rfl := Option.some.inj happens
    exact inv.ends

theorem Begins.inv (begins : w.Begins) : w.Inv := by
  have empty : ∀ e, e ∉ w.log := by
    rw [begins.log]
    exact fun _ => List.not_mem_nil
  constructor
  · constructor
    · exact begins.ids
    · exact begins.hashes
    · exact fun kind h here => absurd here (empty _)
    · exact fun gone here => absurd here (empty _)
    · exact fun s _ _ kind => empty _
    · exact fun s here signup => absurd signup (begins.purposes s here)
    · exact fun s _ _ => empty _
    · exact fun gone here => absurd here (empty _)
  · intro call stage here
    rw [begins.quiet call] at here
    cases here
  · intro c d stage stage' id here
    rw [begins.quiet c] at here
    cases here
  · rw [begins.log]
    exact lawful_nil

end World

/-- Where no two requests have checked one row and yet to save it, and none returns that replaced or
removed a code so checked, every login is proven and every code is redeemed once, while it runs. -/
theorem codes_once (banned : Phone → Bool) {w : World} (begins : w.Begins) {es : List Event}
    (apart : StepsMeet (World.step banned) World.Apart w es) :
    HoldsAlong (World.step banned) (fun t => Lawful t.log) w es :=
  holdsAlong_of_stepsMeet (fun _ inv => inv.lawful)
    (fun _ _ _ inv here happens => inv.step here happens) begins.inv apart

private def noCodes : World where
  tables := ⟨Table.empty, [], [], 1, 1⟩
  calls := fun _ => none
  log := []

private theorem noCodes_begins : noCodes.Begins where
  quiet _ := rfl
  log := rfl
  ids _ none := (by cases none)
  hashes _ none := (by cases none)
  purposes _ none := (by cases none)

/-- The code 11111 is sent to 100000. -/
private def sending : List Event := [.start 0 (.sendCode 100000), .go 0 0 11111]

private def redeems : SignIn := ⟨100000, ⟨1, 1⟩, 11111, 7⟩

/-- A code is sent and redeemed. -/
theorem one_login_once : HoldsAlong (World.step fun _ => false) (fun t => Lawful t.log) noCodes
    (sending ++ [.start 1 (.signIn redeems), .go 1 1 0, .go 1 2 0]) := by
  refine codes_once (fun _ => false) noCodes_begins ?_
  refine (stepsMeet_cons rfl).mpr ⟨trivial, ?_⟩
  refine (stepsMeet_cons rfl).mpr ⟨trivial, ?_⟩
  refine (stepsMeet_cons rfl).mpr ⟨trivial, ?_⟩
  refine (stepsMeet_cons rfl).mpr ⟨?_, ?_⟩
  · intro s _ _ _ call stage here holds
    by_cases first : call = 1
    · subst first
      cases here
      exact holds
    · have none : noCodes.calls call = some stage := by
        by_cases sender : call = 0
        · subst sender
          cases here
        · simpa [World.calls_apply, first, sender] using here
      cases none
  · exact (stepsMeet_cons rfl).mpr ⟨trivial, trivial⟩

/-- Two sign ins that have both read the row redeem the code twice. -/
theorem redeemed_twice : ¬ ∀ (banned : Phone → Bool) (w t : World) (es : List Event), w.Begins →
    runFrom (World.step banned) w es = some t → Lawful t.log := by
  intro lawful
  have twice := lawful (fun _ => false) noCodes _
    (sending ++ [.start 1 (.signIn redeems), .start 2 (.signIn redeems), .go 1 1 0, .go 2 1 0,
      .go 1 2 0, .go 2 2 0]) noCodes_begins rfl
  exact (twice _ (.accepted .signIn ⟨1, 1⟩) [] rfl).1 (by decide)

end Piltover.Codes
