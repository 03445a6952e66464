/- source: piltover/exceptions.py
   digest: What a handler can raise. -/

set_option autoImplicit false

namespace Piltover

/-- What a handler raises: an `ErrorRpc`, or any other exception. -/
inductive Failure
  | rpc (code : Nat) (message : String)
  | other
  deriving DecidableEq, Repr

def require (check : Bool) (failure : Failure) : Except Failure Unit :=
  if check then .ok () else .error failure

@[simp] theorem require_eq_ok {check : Bool} {failure : Failure} :
    require check failure = .ok () ↔ check = true := by
  cases check <;> simp [require]

theorem check_bind_eq_ok {α : Type} {check : Except Failure Unit} {next : Unit → Except Failure α}
    {a : α} : (check >>= next) = .ok a ↔ check = .ok () ∧ next () = .ok a := by
  cases check with
  | error e => exact ⟨fun h => (by cases h), fun h => (by cases h.1)⟩
  | ok u => exact ⟨fun h => ⟨rfl, h⟩, fun h => h.2⟩

theorem bind_eq_ok {α β : Type} (first : Except Failure α) {next : α → Except Failure β} {b : β} :
    (first >>= next) = .ok b ↔ ∃ a, first = .ok a ∧ next a = .ok b := by
  cases first with
  | error e => exact ⟨fun h => (by cases h), fun ⟨_, h, _⟩ => (by cases h)⟩
  | ok a => exact ⟨fun h => ⟨a, rfl, h⟩, fun ⟨_, h, rest⟩ => by cases h; exact rest⟩

theorem map_eq_ok {α β : Type} {f : α → β} {first : Except Failure α} {b : β} :
    first.map f = .ok b ↔ ∃ a, first = .ok a ∧ f a = b := by
  cases first with
  | error e => exact ⟨fun h => (by cases h), fun ⟨_, h, _⟩ => (by cases h)⟩
  | ok a =>
    exact ⟨fun h => ⟨a, rfl, Except.ok.inj h⟩,
      fun ⟨_, h, same⟩ => by cases h; rw [← same]; rfl⟩

theorem mapM_eq_ok_map {α β : Type} {f : α → Except Failure β} {g : α → β} {l : List α}
    (each : ∀ a ∈ l, f a = .ok (g a)) : l.mapM f = .ok (l.map g) := by
  induction l with
  | nil => rfl
  | cons a l ih =>
    have rest := ih fun b later => each b (List.mem_cons_of_mem a later)
    rw [List.mapM_cons, each a List.mem_cons_self, rest]
    rfl

theorem mapM_map_eq_ok {α β γ : Type} {f : α → Except Failure β} {h : β → γ} {g : α → γ} {l : List α}
    (each : ∀ a ∈ l, (f a).map h = .ok (g a)) : (l.mapM f).map (List.map h) = .ok (l.map g) := by
  induction l with
  | nil => rfl
  | cons a l ih =>
    obtain ⟨b, first, same⟩ := map_eq_ok.mp (each a List.mem_cons_self)
    obtain ⟨m, later, rest⟩ := map_eq_ok.mp (ih fun c there => each c (List.mem_cons_of_mem a there))
    rw [List.mapM_cons, first, later, List.map_cons, ← same, ← rest]
    rfl

theorem exists_mem_of_mapM {α β : Type} {f : α → Except Failure β} {l : List α} {m : List β}
    (done : l.mapM f = .ok m) {a : α} (listed : a ∈ l) : ∃ b, f a = .ok b ∧ b ∈ m := by
  induction l generalizing m with
  | nil => cases listed
  | cons first l ih =>
    rw [List.mapM_cons] at done
    obtain ⟨b, here, rest⟩ := (bind_eq_ok _).mp done
    obtain ⟨bs, later, same⟩ := (bind_eq_ok _).mp rest
    cases same
    rcases List.mem_cons.mp listed with rfl | listed
    · exact ⟨b, here, List.mem_cons_self⟩
    · obtain ⟨c, there, inLater⟩ := ih later listed
      exact ⟨c, there, List.mem_cons_of_mem b inLater⟩

theorem mem_of_mapM {α β : Type} {f : α → Except Failure β} {l : List α} {m : List β}
    (done : l.mapM f = .ok m) {b : β} (listed : b ∈ m) : ∃ a ∈ l, f a = .ok b := by
  induction l generalizing m with
  | nil =>
    cases done
    cases listed
  | cons first l ih =>
    rw [List.mapM_cons] at done
    obtain ⟨c, here, rest⟩ := (bind_eq_ok _).mp done
    obtain ⟨cs, later, same⟩ := (bind_eq_ok _).mp rest
    cases same
    rcases List.mem_cons.mp listed with rfl | listed
    · exact ⟨first, List.mem_cons_self, here⟩
    · obtain ⟨a, there, ok⟩ := ih later listed
      exact ⟨a, List.mem_cons_of_mem first there, ok⟩

def orRaise {α : Type} (found : Option α) (failure : Failure) : Except Failure α :=
  match found with
  | some a => .ok a
  | none => .error failure

theorem orRaise_eq_ok {α : Type} {found : Option α} {failure : Failure} {a : α} :
    orRaise found failure = .ok a ↔ found = some a := by
  cases found <;> simp [orRaise]

theorem orRaise_bind_eq_ok {α β : Type} {found : Option α} {failure : Failure}
    {next : α → Except Failure β} {b : β} :
    (orRaise found failure >>= next) = .ok b ↔ ∃ a, found = some a ∧ next a = .ok b := by
  simp only [bind_eq_ok, orRaise_eq_ok]

/-- The computation ends well or with an error for the client. -/
def Settles {α : Type} (x : Except Failure α) : Prop :=
  (∃ code message, x = .error (.rpc code message)) ∨ ∃ a, x = .ok a

theorem settles_orRaise {α : Type} (found : Option α) (code : Nat) (message : String) :
    Settles (orRaise found (.rpc code message)) := by
  cases found with
  | none => exact .inl ⟨code, message, rfl⟩
  | some a => exact .inr ⟨a, rfl⟩

theorem settles_require (check : Bool) (code : Nat) (message : String) :
    Settles (require check (.rpc code message)) := by
  cases check with
  | false => exact .inl ⟨code, message, rfl⟩
  | true => exact .inr ⟨(), rfl⟩

theorem settles_bind {α β : Type} {first : Except Failure α} {next : α → Except Failure β}
    (before : Settles first) (later : ∀ a, Settles (next a)) : Settles (first >>= next) := by
  rcases before with ⟨code, message, rfl⟩ | ⟨a, rfl⟩
  · exact .inl ⟨code, message, rfl⟩
  · exact later a

/-- The client gets no error: the computation ends well or with another exception. -/
def Unrefused {α : Type} (x : Except Failure α) : Prop :=
  ∀ code message, x ≠ .error (.rpc code message)

theorem unrefused_ok {α : Type} (a : α) : Unrefused (.ok a : Except Failure α) :=
  fun _ _ refused => by cases refused

theorem unrefused_orRaise {α : Type} (found : Option α) : Unrefused (orRaise found .other) := by
  intro code message refused
  cases found <;> cases refused

theorem Unrefused.cases {α : Type} {x : Except Failure α} (unrefused : Unrefused x) :
    x = .error .other ∨ ∃ a, x = .ok a := by
  match x with
  | .error (.rpc code message) => exact absurd rfl (unrefused code message)
  | .error .other => exact .inl rfl
  | .ok a => exact .inr ⟨a, rfl⟩

theorem unrefused_bind_iff {α β : Type} (first : Except Failure α) {next : α → Except Failure β} :
    Unrefused (first >>= next) ↔ Unrefused first ∧ ∀ a, first = .ok a → Unrefused (next a) := by
  cases first with
  | error e =>
    constructor
    · intro unrefused
      refine ⟨fun code message refused => ?_, fun a found => (by cases found)⟩
      cases refused
      exact unrefused code message rfl
    · rintro ⟨unrefused, -⟩ code message refused
      cases refused
      exact unrefused code message rfl
  | ok a =>
    constructor
    · intro unrefused
      exact ⟨unrefused_ok a, fun b found => by cases found; exact unrefused⟩
    · exact fun both => both.2 a rfl

theorem unrefused_map {α β : Type} {x : Except Failure α} {f : α → β} (unrefused : Unrefused x) :
    Unrefused (x.map f) := by
  rcases unrefused.cases with rfl | ⟨a, rfl⟩
  · intro code message refused
    cases refused
  · exact unrefused_ok (f a)

/-- What a handler that writes as it goes leaves behind, and the exception that ended it, if any. -/
structure Ended (σ : Type) where
  left : σ
  raised : Option Failure

namespace Ended

variable {σ : Type}

/-- The client gets an error, or what is left is as it should be, also when another exception ends
the handler. -/
def RefusedOr (good : σ → Prop) (ended : Ended σ) : Prop :=
  match ended.raised with
  | some (.rpc _ _) => True
  | some .other | none => good ended.left

theorem refusedOr_of_settles {α : Type} {good : σ → Prop} {check : Except Failure α}
    {ended : Ended σ} (settles : Settles check)
    (refused : ∀ failure, check = .error failure → ended.raised = some failure) :
    RefusedOr good ended ↔ ∀ a, check = .ok a → RefusedOr good ended := by
  rcases settles with ⟨code, message, rfl⟩ | ⟨a, rfl⟩
  · refine ⟨fun _ a checked => (by cases checked), fun _ => ?_⟩
    rw [RefusedOr, refused _ rfl]
    trivial
  · exact ⟨fun here _ _ => here, fun all => all a rfl⟩

def next (first : Ended σ) (rest : σ → Ended σ) : Ended σ :=
  match first.raised with
  | none => rest first.left
  | some _ => first

/-- What is left, seen with less. -/
def map {τ : Type} (f : σ → τ) (ended : Ended σ) : Ended τ := ⟨f ended.left, ended.raised⟩

theorem map_next {τ : Type} {f : σ → τ} {first : Ended σ} {rest : σ → Ended σ}
    (seen : τ → Ended τ) (same : ∀ s, (rest s).map f = seen (f s)) :
    (first.next rest).map f = (first.map f).next seen := by
  obtain ⟨left, _ | failure⟩ := first
  · exact same left
  · rfl

theorem next_left {reached : σ → Prop} {first : Ended σ} {rest : σ → Ended σ}
    (here : reached first.left) (keeps : ∀ s, reached s → reached (rest s).left) :
    reached (first.next rest).left := by
  unfold next
  cases first.raised with
  | none => exact keeps _ here
  | some _ => exact here

end Ended

end Piltover
