/- source: piltover/app/utils/utils.py
   digest: Mentions, links and commands found in a text, put between the entities it has. -/

import Piltover.Entities.Validation
import Piltover.Foundation.Bisection
import Piltover.Foundation.Runs
import Mathlib.Algebra.Ring.Nat
import Mathlib.Data.List.Sort

set_option autoImplicit false

namespace Piltover.Entities

open Piltover.Foundation.Bisection Piltover.Foundation.Matching Piltover.Foundation.Runs
open Piltover.Foundation.Slices

/-! ### What is found in a text -/

/-- What the finders use: the characters that `\w` matches, and the links that a text has, by the
bytes of its UTF-8. -/
structure Finders where
  isWord : Char → Bool
  findUrls : List Char → List (Int × Int)

def USERNAME_MENTION_REGEX : Pattern Char Unit := fun _ rest =>
  match rest with
  | [] => none
  | c :: more =>
    let name := more.takeWhile isUsernameChar
    if c = '@' ∧ name ≠ [] then some ((), 1 + min name.length 32) else none

def BOT_COMMAND_REGEX (finders : Finders) : Pattern Char Unit := fun _ rest =>
  match rest with
  | [] => none
  | c :: more =>
    let name := more.takeWhile fun d => d.isAlphanum || d = '_'
    if c = '/' ∧ name ≠ [] ∧ name.length ≤ 64 ∧
        (more[name.length]?.any finders.isWord) = false then
      some ((), 1 + name.length)
    else none

/-- `match.span()` of each match. -/
def spansFrom : Nat → List (Token Char Unit) → List (Nat × Nat)
  | _, [] => []
  | place, .plain _ :: ts => spansFrom (place + 1) ts
  | place, .found _ raw :: ts =>
    (place, place + raw.length) :: spansFrom (place + raw.length) ts

def finditer (pattern : Pattern Char Unit) (text : List Char) : List (Nat × Nat) :=
  spansFrom 0 (tokens pattern none text)

/-- How many characters so many bytes are; none when they end in a character. -/
def charsIn : List Char → Nat → Option Nat
  | _, 0 => some 0
  | [], _ + 1 => none
  | c :: text, n + 1 =>
    if c.utf8Size ≤ n + 1 then (charsIn text (n + 1 - c.utf8Size)).map (· + 1) else none

def utf8SpanToCharSpan (text : List Char) (start stop : Int) : Option (Nat × Nat) :=
  let data := (text.map Char.utf8Size).sum
  if start < 0 ∨ data < stop ∨ stop ≤ start then none
  else do
    let charStart ← charsIn text start.toNat
    let chars ← charsIn (text.drop charStart) (stop - start).toNat
    if text.length < charStart + chars then none else some (charStart, charStart + chars)

structure Candidate where
  kind : EntityKind
  span : Nat × Nat

/-- The candidates in the order in which they are tried. -/
def candidates (finders : Finders) (text : List Char) : List Candidate :=
  (finditer USERNAME_MENTION_REGEX text).map (⟨.mention, ·⟩) ++
    ((finders.findUrls text).filterMap fun span =>
      (utf8SpanToCharSpan text span.1 span.2).map (⟨.url, ·⟩)) ++
    (finditer (BOT_COMMAND_REGEX finders) text).map (⟨.botCommand, ·⟩)

/-! ### Inserting them -/

def spanToOffsetLength (span : Nat × Nat) (u8u16 : List Nat) : Option (Int × Int × Int) := do
  let u16start ← u8u16[span.1]?
  let u16end ← u8u16[span.2]?
  some (u16start, u16end, (u16end : Int) - u16start)

def checkEntityInsideEntity (entities : List MessageEntity) (u16start u16end : Int) : Bool :=
  let last := bisectRight MessageEntity.offset entities u16start
  let lastEntity := if 0 < last then entities[last - 1]? else none
  let next := bisectLeft MessageEntity.offset entities u16start
  let nextEntity := if next + 1 < entities.length then entities[next + 1]? else none
  lastEntity.any (fun e => u16start < e.offset + e.length) ||
    nextEntity.any fun e => e.offset < u16end

def insertEntityMaybe (entities : List MessageEntity) (candidate : Candidate)
    (u8ToU16 : List Nat) : List MessageEntity :=
  match spanToOffsetLength candidate.span u8ToU16 with
  | none => entities
  | some (u16start, u16end, length) =>
    if checkEntityInsideEntity entities u16start u16end then entities
    else insort MessageEntity.offset ⟨candidate.kind, u16start, length⟩ entities

def processMessageEntities (ctx : Context) (finders : Finders) (text : Option (List Char))
    (entitiesToCheck : Option (List MessageEntity)) :
    Except Failure (Option (List MessageEntity)) :=
  match text with
  | none | some [] => .ok none
  | some text => do
      let entities ←
        if entitiesToCheck.getD [] = [] then .ok []
        else validateMessageEntities ctx text (entitiesToCheck.getD [])
      let entities := entities.insertionSort fun e f => e.offset ≤ f.offset
      .ok (some ((candidates finders text).foldl
        (fun entities candidate => insertEntityMaybe entities candidate (unitOffsets text)) entities))

/-! ### Entities that do not overlap -/

def MessageEntity.stop (e : MessageEntity) : Int := e.offset + e.length

/-- The entities share a code unit. -/
def Overlaps (e f : MessageEntity) : Prop := max e.offset f.offset < min e.stop f.stop

def entityOf (text : List Char) (candidate : Candidate) : Option MessageEntity :=
  (spanToOffsetLength candidate.span (unitOffsets text)).map fun (u16start, _, length) =>
    ⟨candidate.kind, u16start, length⟩

/-- A turn of the loops over what is found. -/
def insertStep (text : List Char) (entities : List MessageEntity) (candidate : Candidate) :
    Option (List MessageEntity) :=
  some (insertEntityMaybe entities candidate (unitOffsets text))

/-- The list stays ordered, and what is inserted overlaps nothing that is there. -/
def InsertsApart (text : List Char) (entities : List MessageEntity) (candidate : Candidate)
    (result : List MessageEntity) : Prop :=
  Ordered MessageEntity.offset result ∧
    ∀ e ∈ entityOf text candidate, result = insort MessageEntity.offset e entities →
      ∀ f ∈ entities, ¬ Overlaps e f

/-- The last entity that begins no later goes on beyond the place, or the second one that begins no
earlier does so before the end, and the candidate is refused; or nothing that begins no later goes
on beyond the place, and the first one that begins no earlier is behind the end, or empty. -/
def Sees (entities : List MessageEntity) (start stop : Int) : Prop :=
  (∃ e ∈ (entities.filter fun e => e.offset ≤ start).getLast?, start < e.stop) ∨
    (∃ e ∈ (entities.filter fun e => start ≤ e.offset)[1]?, e.offset < stop) ∨
      (∀ e ∈ entities, e.offset ≤ start → e.stop ≤ start) ∧
        ∀ e ∈ (entities.filter fun e => start ≤ e.offset).head?, stop ≤ e.offset ∨ e.length ≤ 0

/-- The candidate is empty, or the entities around it that are looked at tell of all others. -/
def SeesAround (text : List Char) (entities : List MessageEntity) (candidate : Candidate) : Prop :=
  ∀ e ∈ entityOf text candidate, 0 < e.length → Sees entities e.offset e.stop

section

variable {text : List Char} {entities : List MessageEntity} {start stop : Int}

theorem check_iff (ordered : Ordered MessageEntity.offset entities) :
    checkEntityInsideEntity entities start stop = true ↔
      (∃ e ∈ (entities.filter fun e => e.offset ≤ start).getLast?, start < e.stop) ∨
        ∃ e ∈ (entities.filter fun e => start ≤ e.offset)[1]?, e.offset < stop := by
  have last := getElem?_before_bisectRight ordered start
  have next := getElem?_bisectLeft ordered start 1
  have within : (if bisectLeft MessageEntity.offset entities start + 1 < entities.length then
      entities[bisectLeft MessageEntity.offset entities start + 1]? else none) =
        entities[bisectLeft MessageEntity.offset entities start + 1]? := by
    split
    case isTrue => rfl
    case isFalse beyond => exact (List.getElem?_eq_none (Nat.le_of_not_lt beyond)).symm
  rw [checkEntityInsideEntity, last, within, next, Bool.or_eq_true, Option.any_eq_true, Option.any_eq_true]
  simp only [decide_eq_true_eq, Option.mem_def, MessageEntity.stop]

theorem overlaps_of_open {e f : MessageEntity} (begun : f.offset ≤ e.offset) (long : 0 < e.length)
    (beyond : e.offset < f.stop) : Overlaps e f := by
  unfold Overlaps MessageEntity.stop at *
  omega

theorem overlaps_of_inside {e f : MessageEntity} (behind : e.offset ≤ f.offset)
    (before : f.offset < e.stop) (some : 0 < f.length) : Overlaps e f := by
  unfold Overlaps MessageEntity.stop at *
  omega

/-- An entity that begins no later, and is over, is not met; nor is one that begins behind the end,
nor an empty one. -/
theorem apart_of_ended {e f : MessageEntity} (ended : f.stop ≤ e.offset ∨ e.stop ≤ f.offset ∨
    f.length ≤ 0) : ¬ Overlaps e f := by
  unfold Overlaps MessageEntity.stop at *
  omega

/-- The candidate is refused or apart from all entities exactly when those that are looked at tell
of the others. -/
theorem apart_iff (ordered : Ordered MessageEntity.offset entities) {e : MessageEntity}
    (long : 0 < e.length) :
    (checkEntityInsideEntity entities e.offset e.stop = false → ∀ f ∈ entities, ¬ Overlaps e f) ↔
      Sees entities e.offset e.stop := by
  constructor
  · intro apart
    cases fired : checkEntityInsideEntity entities e.offset e.stop with
    | true =>
      rcases (check_iff ordered).mp fired with last | next
      · exact .inl last
      · exact .inr (.inl next)
    | false =>
      refine .inr (.inr ⟨fun f mem begun => ?_, fun f head => ?_⟩)
      · by_contra beyond
        exact apart fired f mem (overlaps_of_open begun long (Int.not_le.mp beyond))
      · obtain ⟨mem, behind⟩ := List.mem_filter.mp (List.mem_of_mem_head? head)
        rw [decide_eq_true_eq] at behind
        by_contra inside
        rw [not_or, Int.not_le, Int.not_le] at inside
        exact apart fired f mem (overlaps_of_inside behind inside.1 inside.2)
  · intro sees unfired f mem
    have refused : ¬ ((∃ g ∈ (entities.filter fun f => f.offset ≤ e.offset).getLast?,
        e.offset < g.stop) ∨
          ∃ g ∈ (entities.filter fun f => e.offset ≤ f.offset)[1]?, g.offset < e.stop) := by
      rw [← check_iff ordered, unfired]
      exact Bool.false_ne_true
    rw [not_or] at refused
    rcases sees with last | next | ⟨ended, first⟩
    · exact absurd last refused.1
    · exact absurd next refused.2
    · by_cases begun : f.offset ≤ e.offset
      · exact apart_of_ended (.inl (ended f mem begun))
      · have behind : f ∈ entities.filter fun f => e.offset ≤ f.offset :=
          List.mem_filter.mpr ⟨mem, decide_eq_true (Int.le_of_lt (Int.not_le.mp begun))⟩
        have later := ordered.filter fun f => e.offset ≤ f.offset
        -- Behind the first one stands the second one, which begins behind the end, or nothing.
        cases split : entities.filter fun f => e.offset ≤ f.offset with
        | nil =>
          rw [split] at behind
          cases behind
        | cons g rest =>
          rw [split] at behind first later refused
          rcases List.mem_cons.mp behind with rfl | behind
          · exact apart_of_ended (.inr (first f rfl))
          · cases rest with
            | nil => cases behind
            | cons h rest =>
              have second : e.stop ≤ h.offset := by
                by_contra before
                exact refused.2 ⟨h, rfl, Int.not_le.mp before⟩
              have after : h.offset ≤ f.offset := by
                rcases List.mem_cons.mp behind with rfl | behind
                · exact Int.le_refl _
                · exact (List.pairwise_cons.mp (List.pairwise_cons.mp later).2).1 f behind
              exact apart_of_ended (.inr (.inl (Int.le_trans second after)))

theorem entityOf_stop {candidate : Candidate} {e : MessageEntity}
    (is : entityOf text candidate = some e) :
    spanToOffsetLength candidate.span (unitOffsets text) = some (e.offset, e.stop, e.length) ∧
      e.kind = candidate.kind := by
  rw [entityOf] at is
  obtain ⟨⟨u16start, u16end, length⟩, converted, rfl⟩ := Option.map_eq_some_iff.mp is
  refine ⟨?_, rfl⟩
  rw [converted]
  rw [spanToOffsetLength] at converted
  simp only [bind, Option.bind_eq_some_iff] at converted
  obtain ⟨a, -, b, -, same⟩ := converted
  cases same
  simp only [MessageEntity.stop]
  congr 3
  omega

theorem insertEntityMaybe_eq {candidate : Candidate} :
    insertEntityMaybe entities candidate (unitOffsets text) =
      match entityOf text candidate with
      | none => entities
      | some e =>
        if checkEntityInsideEntity entities e.offset e.stop then entities
        else insort MessageEntity.offset e entities := by
  cases is : entityOf text candidate with
  | none =>
    rw [entityOf, Option.map_eq_none_iff] at is
    rw [insertEntityMaybe, is]
  | some e =>
    obtain ⟨converted, kind⟩ := entityOf_stop is
    rw [insertEntityMaybe, converted]
    dsimp only
    rw [← kind]

theorem length_insertStep {candidate : Candidate} {result : List MessageEntity}
    (step : insertStep text entities candidate = some result) {e : MessageEntity}
    (is : entityOf text candidate = some e)
    (inserted : result = insort MessageEntity.offset e entities) :
    checkEntityInsideEntity entities e.offset e.stop = false := by
  have same := Option.some.inj step
  rw [insertEntityMaybe_eq, is] at same
  dsimp only at same
  by_contra fired
  rw [Bool.not_eq_false] at fired
  rw [if_pos fired, inserted] at same
  have longer := congrArg List.length same
  rw [length_insort] at longer
  omega

theorem ordered_insertStep (ordered : Ordered MessageEntity.offset entities)
    {candidate : Candidate} {result : List MessageEntity}
    (step : insertStep text entities candidate = some result) :
    Ordered MessageEntity.offset result := by
  obtain rfl := Option.some.inj step
  rw [insertEntityMaybe_eq]
  split
  case h_1 => exact ordered
  case h_2 =>
    split
    case isTrue => exact ordered
    case isFalse => exact ordered_insort ordered

theorem insertsApart_of_seesAround (ordered : Ordered MessageEntity.offset entities)
    {candidate : Candidate} {result : List MessageEntity}
    (sees : SeesAround text entities candidate)
    (step : insertStep text entities candidate = some result) :
    InsertsApart text entities candidate result := by
  refine ⟨ordered_insertStep ordered step, fun e is inserted f mem => ?_⟩
  have unfired := length_insertStep step is inserted
  by_cases long : 0 < e.length
  · exact (apart_iff ordered long).mpr (sees e is long) unfired f mem
  · unfold Overlaps MessageEntity.stop
    omega

theorem not_insertsApart (ordered : Ordered MessageEntity.offset entities)
    {candidate : Candidate} {result : List MessageEntity}
    (blind : ¬ SeesAround text entities candidate)
    (step : insertStep text entities candidate = some result) :
    ¬ InsertsApart text entities candidate result := by
  rintro ⟨-, apart⟩
  apply blind
  intro e is long
  rw [← apart_iff ordered long]
  intro unfired
  refine apart e is ?_
  have same := Option.some.inj step
  rw [insertEntityMaybe_eq, show entityOf text candidate = some e from is] at same
  dsimp only at same
  rw [← same, unfired, if_neg Bool.false_ne_true]

/-- What is returned comes from the ordered list of the accepted entities by trying the candidates
one after the other. -/
theorem processMessageEntities_runs {ctx : Context} {finders : Finders}
    {entitiesToCheck : Option (List MessageEntity)} {result : List MessageEntity}
    (done : processMessageEntities ctx finders (some text) entitiesToCheck = .ok (some result)) :
    ∃ entities, Ordered MessageEntity.offset entities ∧
      runFrom (insertStep text) entities (candidates finders text) = some result := by
  have run (l : List Candidate) (entities : List MessageEntity) :
      runFrom (insertStep text) entities l = some (l.foldl
        (fun entities candidate => insertEntityMaybe entities candidate (unitOffsets text))
        entities) := by
    induction l generalizing entities with
    | nil => rfl
    | cons candidate l ih =>
      rw [runFrom_cons]
      exact ih _
  cases text with
  | nil => cases done
  | cons c text =>
    rw [processMessageEntities] at done
    · have sorted (accepted : List MessageEntity) :
          Ordered MessageEntity.offset
            (accepted.insertionSort fun e f => e.offset ≤ f.offset) :=
        List.pairwise_insertionSort _ accepted
      split at done
      case isTrue =>
        cases done
        exact ⟨_, sorted [], run _ _⟩
      case isFalse =>
        obtain ⟨accepted, -, same⟩ := (bind_eq_ok _).mp done
        cases same
        exact ⟨_, sorted accepted, run _ _⟩
    · rintro ⟨⟩

/-- Every mention, link and command that is inserted stays apart from all entities that are there,
in a list that stays ordered, exactly when each candidate meets a list in which the entities that
are looked at tell of the others. -/
theorem inserted_apart_iff (finders : Finders) (text : List Char) {entities : List MessageEntity}
    (ordered : Ordered MessageEntity.offset entities) :
    EachStep (insertStep text) (InsertsApart text) entities (candidates finders text) ↔
      StepsMeet (insertStep text) (SeesAround text) entities (candidates finders text) := by
  have goes (s : List MessageEntity) (e : Candidate) : ∃ t, insertStep text s e = some t := ⟨_, rfl⟩
  obtain ⟨result, run⟩ := runFrom_total goes entities (candidates finders text)
  have keeps (s : List MessageEntity) (e : Candidate) (t : List MessageEntity)
      (ordered : Ordered MessageEntity.offset s) (_ : SeesAround text s e)
      (step : insertStep text s e = some t) : Ordered MessageEntity.offset t :=
    ordered_insertStep ordered step
  have does (s : List MessageEntity) (e : Candidate) (t : List MessageEntity)
      (ordered : Ordered MessageEntity.offset s) (sees : SeesAround text s e)
      (step : insertStep text s e = some t) : InsertsApart text s e t :=
    insertsApart_of_seesAround ordered sees step
  have breaks (s : List MessageEntity) (e : Candidate) (t : List MessageEntity)
      (ordered : Ordered MessageEntity.offset s) (blind : ¬ SeesAround text s e)
      (step : insertStep text s e = some t) : ¬ InsertsApart text s e t :=
    not_insertsApart ordered blind step
  exact eachStep_iff_stepsMeet keeps does breaks ordered run

end

/-- A link finder that finds none. -/
private def noLinks : Finders := ⟨fun c => c.isAlphanum || c = '_', fun _ => []⟩

theorem mention_apart : Ordered MessageEntity.offset [⟨.bold, 0, 2⟩] ∧
    EachStep (insertStep ['h', 'i', ' ', '@', 'a']) (InsertsApart ['h', 'i', ' ', '@', 'a'])
      [⟨.bold, 0, 2⟩] (candidates noLinks ['h', 'i', ' ', '@', 'a']) := by
  have ordered : Ordered MessageEntity.offset [⟨.bold, 0, 2⟩] := List.pairwise_singleton _ _
  refine ⟨ordered, (inserted_apart_iff noLinks _ ordered).mpr ?_⟩
  have found : candidates noLinks ['h', 'i', ' ', '@', 'a'] = [⟨.mention, 3, 5⟩] := rfl
  rw [found, stepsMeet_cons_iff]
  refine ⟨?_, fun _ _ => trivial⟩
  intro e is _
  have entity : e = ⟨.mention, 3, 2⟩ := (Option.some.inj is).symm
  subst entity
  refine .inr (.inr ⟨?_, ?_⟩)
  · intro f mem _
    rw [List.mem_singleton.mp mem]
    decide
  · intro f head
    cases head

/-- The name in `@username` is bold from its third letter on: the only entity is not looked at. -/
theorem mention_over_bold : ¬ ∀ finders text entities, Ordered MessageEntity.offset entities →
    EachStep (insertStep text) (InsertsApart text) entities (candidates finders text) := by
  intro apart
  have ordered : Ordered MessageEntity.offset [⟨.bold, 3, 2⟩] := List.pairwise_singleton _ _
  have each := apart noLinks ['@', 'u', 's', 'e', 'r', 'n', 'a', 'm', 'e'] _ ordered
  have found : candidates noLinks ['@', 'u', 's', 'e', 'r', 'n', 'a', 'm', 'e'] =
      [⟨.mention, 0, 9⟩] := rfl
  rw [found] at each
  obtain ⟨-, free⟩ := each [] ⟨.mention, 0, 9⟩ _ _ List.prefix_rfl rfl rfl
  refine free ⟨.mention, 0, 9⟩ rfl rfl ⟨.bold, 3, 2⟩ (List.mem_singleton.mpr rfl) ?_
  unfold Overlaps
  decide

end Piltover.Entities
