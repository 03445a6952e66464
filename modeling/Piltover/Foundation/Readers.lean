/- source: none (library)
   digest: Readers that take values off the front of a stream, and the codes they undo. -/

import Mathlib.Data.List.Basic

set_option autoImplicit false

namespace Piltover.Foundation

/-- A reader takes a value off the front of what the stream still holds. -/
abbrev Reader (σ ε α : Type) := List σ → Except ε (α × List σ)

namespace Reader

variable {σ ε α β : Type}

/-- Nothing is taken off the stream. -/
def pure (a : α) : Reader σ ε α := fun stream => .ok (a, stream)

/-- The first reader, and the next one where it stopped. -/
def andThen (first : Reader σ ε α) (next : α → Reader σ ε β) : Reader σ ε β := fun stream =>
  match first stream with
  | .error e => .error e
  | .ok (a, stream) => next a stream

def map (f : α → β) (read : Reader σ ε α) : Reader σ ε β := read.andThen fun a => pure (f a)

/-- One reader after the other. -/
def all : List (Reader σ ε α) → Reader σ ε (List α)
  | [] => pure []
  | read :: reads => read.andThen fun a => (all reads).map (a :: ·)

/-- The same reader again and again. -/
def many (read : Reader σ ε α) (n : Nat) : Reader σ ε (List α) := all (List.replicate n read)

theorem andThen_of_ok {first : Reader σ ε α} {next : α → Reader σ ε β} {stream rest : List σ}
    {a : α} (read : first stream = .ok (a, rest)) :
    first.andThen next stream = next a rest := by
  rw [andThen, read]

theorem andThen_of_error {first : Reader σ ε α} {next : α → Reader σ ε β} {stream : List σ}
    {e : ε} (failed : first stream = .error e) : first.andThen next stream = .error e := by
  rw [andThen, failed]

theorem andThen_eq_ok {first : Reader σ ε α} {next : α → Reader σ ε β} {stream rest : List σ}
    {b : β} : first.andThen next stream = .ok (b, rest) ↔
      ∃ a between, first stream = .ok (a, between) ∧ next a between = .ok (b, rest) := by
  rw [andThen]
  cases first stream with
  | error e => exact ⟨fun h => (by cases h), fun ⟨_, _, h, _⟩ => (by cases h)⟩
  | ok read =>
    refine ⟨fun h => ⟨read.1, read.2, rfl, h⟩, ?_⟩
    rintro ⟨a, between, same, h⟩
    cases same
    exact h

/-- The code is read as the value, whatever follows it. -/
def Undoes (read : Reader σ ε α) (code : List σ) (a : α) : Prop :=
  ∀ rest, read (code ++ rest) = .ok (a, rest)

theorem undoes_pure (a : α) : (pure a : Reader σ ε α).Undoes [] a := fun _ => rfl

theorem Undoes.andThen {first : Reader σ ε α} {next : α → Reader σ ε β} {code code' : List σ}
    {a : α} {b : β} (here : first.Undoes code a) (later : (next a).Undoes code' b) :
    (first.andThen next).Undoes (code ++ code') b := by
  intro rest
  rw [List.append_assoc, andThen_of_ok (here _)]
  exact later rest

theorem Undoes.map {read : Reader σ ε α} {code : List σ} {a : α} (f : α → β)
    (undone : read.Undoes code a) : (read.map f).Undoes code (f a) := by
  intro rest
  exact andThen_of_ok (undone rest)

/-- What a writer writes one after the other is read one after the other, each value by its own
reader. -/
theorem undoes_all {write : α → Option (List σ)} {reader : α → Reader σ ε α}
    (law : ∀ a code, write a = some code → (reader a).Undoes code a) {values : List α}
    {codes : List (List σ)} (written : values.mapM write = some codes) :
    (all (values.map reader)).Undoes codes.flatten values := by
  induction values generalizing codes with
  | nil =>
    cases written
    exact undoes_pure []
  | cons a values ih =>
    rw [List.mapM_cons] at written
    obtain ⟨code, here, written⟩ := Option.bind_eq_some_iff.mp written
    obtain ⟨codes, later, same⟩ := Option.bind_eq_some_iff.mp written
    cases same
    exact (law a code here).andThen ((ih later).map (a :: ·))

theorem undoes_many {write : α → Option (List σ)} {read : Reader σ ε α}
    (law : ∀ a code, write a = some code → read.Undoes code a) {values : List α}
    {codes : List (List σ)} (written : values.mapM write = some codes) :
    (read.many values.length).Undoes codes.flatten values := by
  have each : (all (values.map fun _ => read)).Undoes codes.flatten values := undoes_all law written
  rwa [List.map_const'] at each

theorem map_eq_ok {f : α → β} {read : Reader σ ε α} {stream rest : List σ} {b : β} :
    read.map f stream = .ok (b, rest) ↔ ∃ a, read stream = .ok (a, rest) ∧ f a = b := by
  rw [map, andThen_eq_ok]
  constructor
  · rintro ⟨a, between, done, same⟩
    cases same
    exact ⟨a, done, rfl⟩
  · rintro ⟨a, done, rfl⟩
    exact ⟨a, rest, done, rfl⟩

theorem length_of_all {reads : List (Reader σ ε α)} {stream rest : List σ} {as : List α}
    (done : all reads stream = .ok (as, rest)) : as.length = reads.length := by
  induction reads generalizing stream as with
  | nil =>
    cases done
    rfl
  | cons read reads ih =>
    obtain ⟨a, between, here, later⟩ := andThen_eq_ok.mp done
    obtain ⟨bs, others, rfl⟩ := map_eq_ok.mp later
    exact congrArg (· + 1) (ih others)

theorem length_of_many {read : Reader σ ε α} {n : Nat} {stream rest : List σ} {as : List α}
    (done : read.many n stream = .ok (as, rest)) : as.length = n :=
  (length_of_all done).trans List.length_replicate

/-- What is read was a whole frame of the value, and nothing else was taken off the stream. -/
def ExactOn (read : Reader σ ε α) (frame : List σ → α → Prop) (stream : List σ) : Prop :=
  ∀ a rest, read stream = .ok (a, rest) → ∃ code, frame code a ∧ stream = code ++ rest

variable {read : Reader σ ε α} {frame : List σ → α → Prop} {stream rest : List σ} {a : α}

theorem exactOn_of_error {e : ε} (failed : read stream = .error e) : read.ExactOn frame stream := by
  intro a rest done
  rw [failed] at done
  cases done

theorem exactOn_iff (done : read stream = .ok (a, rest)) :
    read.ExactOn frame stream ↔ ∃ code, frame code a ∧ stream = code ++ rest := by
  refine ⟨fun exactly => exactly a rest done, fun framed b left same => ?_⟩
  rw [done] at same
  cases same
  exact framed

theorem exactOn_append {code : List σ} (law : read.Undoes code a) (framed : frame code a) :
    read.ExactOn frame (code ++ rest) :=
  (exactOn_iff (law rest)).mpr ⟨code, framed, rfl⟩

theorem isSome_mapM {f : α → Option β} {l : List α} :
    (l.mapM f).isSome ↔ ∀ a ∈ l, (f a).isSome := by
  induction l with
  | nil => exact iff_of_true rfl (List.forall_mem_nil _)
  | cons a l ih =>
    rw [List.forall_mem_cons, ← ih, List.mapM_cons]
    cases f a with
    | none => exact iff_of_false Bool.false_ne_true fun both => Bool.false_ne_true both.1
    | some b =>
      cases l.mapM f with
      | none => exact iff_of_false Bool.false_ne_true fun both => Bool.false_ne_true both.2
      | some bs => exact iff_of_true rfl ⟨rfl, rfl⟩

end Reader

end Piltover.Foundation
