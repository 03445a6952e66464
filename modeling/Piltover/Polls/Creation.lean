/- source: piltover/app/handlers/messages/sending.py, piltover/db/models/poll.py,
     piltover/db/models/poll_answer.py
   digest: Polls that are sent: which ones are created, and which of those should not be. -/

import Piltover.Polls.Votes

set_option autoImplicit false

namespace Piltover.Polls

/-! ### What is sent, and the rows made of it -/

/-- A string, or a `TextWithEntities`, of which only the text is used. -/
inductive InputText
  | plain (text : List Char)
  | withEntities (text : List Char)
  deriving DecidableEq, Repr

def InputText.text : InputText → List Char
  | plain text => text
  | withEntities text => text

structure InputAnswer where
  text : InputText
  option : Bytes
  deriving DecidableEq, Repr

structure InputPoll where
  publicVoters : Bool
  multipleChoice : Bool
  quiz : Bool
  question : InputText
  answers : List InputAnswer
  closePeriod : Option Int
  closeDate : Option Int
  deriving DecidableEq, Repr

structure InputMediaPoll where
  poll : InputPoll
  correctAnswers : Option (List Bytes)
  solution : Option (List Char)
  deriving DecidableEq, Repr

structure NewPoll where
  quiz : Bool
  publicVoters : Bool
  multipleChoices : Bool
  question : List Char
  solution : Option (List Char)
  endsAt : Option Int
  deriving DecidableEq, Repr

structure NewAnswer where
  text : List Char
  option : Bytes
  correct : Bool
  deriving DecidableEq, Repr

/-! ### `_process_media` -/

/-- Microseconds. -/
def SECOND : Int := 1000000

def DAY : Int := 86400 * SECOND

/-- `timedelta.seconds`: the seconds that are left when the days, rounded down, are taken off. -/
def timedeltaSeconds (delta : Int) : Int := delta % DAY / SECOND

def endsAt (now : Int) (poll : InputPoll) : Option Int :=
  match poll.closePeriod.filter fun period => 5 < period ∧ period ≤ 600 with
  | some period => some (now + period * SECOND)
  | none =>
    (poll.closeDate.filter (· ≠ 0)).bind fun date =>
      let seconds := timedeltaSeconds (date * SECOND - now)
      if 5 < seconds ∧ seconds ≤ 600 then some (date * SECOND) else none

def answerFits (answer : InputAnswer) : Bool :=
  answer.option ≠ [] && answer.option.length ≤ 100 && answer.text.text ≠ [] &&
    answer.text.text.length ≤ 100

/-- The loop over the answers; nothing is added to the set of options. -/
def checkAnswers (answers : List Bytes) : List InputAnswer → Except Failure (List Bytes)
  | [] => .ok answers
  | answer :: rest => do
      require (!answers.contains answer.option) (.rpc 400 "POLL_OPTION_DUPLICATE")
      require (answerFits answer) (.rpc 400 "POLL_ANSWER_INVALID")
      checkAnswers answers rest

def solutionFits (solution : List Char) : Bool :=
  solution.length ≤ 200 && solution.count '\n' ≤ 2

def correctOption (media : InputMediaPoll) (answers : List Bytes) :
    Except Failure (Option Bytes) :=
  if media.poll.quiz then
    match (media.correctAnswers.getD []).head? with
    | none => .error .other
    | some correct => do
        require (answers.contains correct) (.rpc 400 "QUIZ_CORRECT_ANSWER_INVALID")
        .ok (some correct)
  else .ok none

def newPoll (now : Int) (media : InputMediaPoll) : NewPoll where
  quiz := media.poll.quiz
  publicVoters := media.poll.publicVoters
  multipleChoices := media.poll.multipleChoice
  question := media.poll.question.text
  solution := if media.poll.quiz then media.solution else none
  endsAt := endsAt now media.poll

def newAnswer (correct : Option Bytes) (answer : InputAnswer) : NewAnswer where
  text := answer.text.text
  option := answer.option
  correct := some answer.option == correct

/-- The branch of `_process_media` for polls: the rows that it creates. -/
def processPoll (now : Int) (media : InputMediaPoll) :
    Except Failure (NewPoll × List NewAnswer) := do
  let poll := media.poll
  let question := poll.question.text
  require (!(poll.quiz && poll.multipleChoice)) (.rpc 400 "QUIZ_MULTIPLE_INVALID")
  require (!(poll.quiz && (media.correctAnswers.getD []).isEmpty))
    (.rpc 400 "QUIZ_CORRECT_ANSWERS_EMPTY")
  require (!(poll.quiz && 1 < (media.correctAnswers.getD []).length))
    (.rpc 400 "QUIZ_CORRECT_ANSWERS_TOO_MUCH")
  require (question ≠ [] && question.length ≤ 255) (.rpc 400 "POLL_QUESTION_INVALID")
  require (2 ≤ poll.answers.length && poll.answers.length ≤ 10) (.rpc 400 "POLL_ANSWERS_INVALID")
  require (!(poll.quiz && media.solution.any (!solutionFits ·))) (.rpc 400 "POLL_ANSWERS_INVALID")
  let answers ← checkAnswers [] poll.answers
  let correct ← correctOption media answers
  .ok (newPoll now media, poll.answers.map (newAnswer correct))

/-! ### Polls that are valid -/

/-- The limits on the lengths and the numbers of what is sent. -/
structure WithinLimits (media : InputMediaPoll) : Prop where
  question : media.poll.question.text ≠ [] ∧ media.poll.question.text.length ≤ 255
  count : 2 ≤ media.poll.answers.length ∧ media.poll.answers.length ≤ 10
  answers : ∀ answer ∈ media.poll.answers,
    (answer.option ≠ [] ∧ answer.option.length ≤ 100) ∧
      answer.text.text ≠ [] ∧ answer.text.text.length ≤ 100
  solution : media.poll.quiz = true → ∀ solution ∈ media.solution,
    solution.length ≤ 200 ∧ solution.count '\n' ≤ 2

def InputMediaPoll.options (media : InputMediaPoll) : List Bytes :=
  media.poll.answers.map InputAnswer.option

/-- The options differ, and a quiz has one correct answer, which is one of them, and is not multiple
choice. -/
structure Valid (media : InputMediaPoll) : Prop where
  limits : WithinLimits media
  distinct : media.options.Nodup
  quiz : media.poll.quiz = true → media.poll.multipleChoice = false ∧
    ∃ correct ∈ media.options, media.correctAnswers = some [correct]

/-- An answer is correct when it is the one of a quiz. -/
def marked (media : InputMediaPoll) (answer : InputAnswer) : Bool :=
  media.poll.quiz && media.correctAnswers == some [answer.option]

/-- The rows are those of what was sent, the correct answer is marked, and the poll ends in more
than five seconds and in six hundred at most, if it ends. -/
structure IsMadeOf (now : Int) (media : InputMediaPoll) (poll : NewPoll)
    (answers : List NewAnswer) : Prop where
  question : poll.question = media.poll.question.text
  kind : (poll.quiz, poll.multipleChoices, poll.publicVoters) =
    (media.poll.quiz, media.poll.multipleChoice, media.poll.publicVoters)
  answers : answers = media.poll.answers.map fun answer =>
    ⟨answer.text.text, answer.option, marked media answer⟩
  ends : ∀ moment ∈ poll.endsAt, now + 5 * SECOND < moment ∧ moment ≤ now + 600 * SECOND

/-- A poll is created when it is valid, and what is not valid is refused. -/
def AcceptsExactly (now : Int) (media : InputMediaPoll) : Prop :=
  match processPoll now media with
  | .ok (poll, answers) => Valid media ∧ IsMadeOf now media poll answers
  | .error (.rpc _ _) => ¬ Valid media
  | .error .other => False

/-- A close date that is taken, because its distance is small up to whole days, is near. -/
def DateNear (now : Int) (poll : InputPoll) : Prop :=
  (∀ period ∈ poll.closePeriod, ¬ (5 < period ∧ period ≤ 600)) →
    ∀ date ∈ poll.closeDate, date ≠ 0 →
      5 < timedeltaSeconds (date * SECOND - now) →
        timedeltaSeconds (date * SECOND - now) ≤ 600 →
          5 * SECOND < date * SECOND - now ∧ date * SECOND - now ≤ 600 * SECOND

/-! ### Which polls are accepted exactly -/

/-- An error of the client. -/
def Refused {α : Type} (result : Except Failure α) : Prop :=
  ∃ message, result = .error (.rpc 400 message)

section

variable {now : Int} {media : InputMediaPoll} {answers : List Bytes}

theorem refused_require_bind {α : Type} {check : Bool} {message : String}
    {next : Unit → Except Failure α} :
    Refused (require check (.rpc 400 message) >>= next) ↔ check = false ∨ Refused (next ()) := by
  cases check with
  | false => exact ⟨fun _ => .inl rfl, fun _ => ⟨message, rfl⟩⟩
  | true =>
    refine ⟨.inr, fun either => ?_⟩
    rcases either with absurd_ | refused
    · cases absurd_
    · exact refused

theorem checkAnswers_cases (list : List InputAnswer) :
    (checkAnswers answers list = .ok answers ∧
        ∀ answer ∈ list, answer.option ∉ answers ∧ answerFits answer = true) ∨
      Refused (checkAnswers answers list) ∧
        ∃ answer ∈ list, answer.option ∈ answers ∨ answerFits answer = false := by
  induction list with
  | nil => exact .inl ⟨rfl, List.forall_mem_nil _⟩
  | cons answer rest ih =>
    rw [checkAnswers]
    cases new : !answers.contains answer.option with
    | false =>
      rw [Bool.not_eq_false', List.contains_iff_mem] at new
      exact .inr ⟨refused_require_bind.mpr (.inl rfl), answer, List.mem_cons_self, .inl new⟩
    | true =>
      rw [Bool.not_eq_true', ← Bool.not_eq_true, List.contains_iff_mem] at new
      cases fits : answerFits answer with
      | false =>
        refine .inr ⟨?_, answer, List.mem_cons_self, .inr fits⟩
        exact refused_require_bind.mpr (.inr (refused_require_bind.mpr (.inl rfl)))
      | true =>
        rcases ih with ⟨done, all⟩ | ⟨refused, wrong, mem, why⟩
        · exact .inl ⟨done, List.forall_mem_cons.mpr ⟨⟨new, fits⟩, all⟩⟩
        · refine .inr ⟨?_, wrong, List.mem_cons_of_mem _ mem, why⟩
          exact refused_require_bind.mpr (.inr (refused_require_bind.mpr (.inr refused)))

theorem quiz_refused (quiz : media.poll.quiz = true) : Refused (processPoll now media) := by
  rw [processPoll]
  simp only [refused_require_bind]
  cases none_ : (media.correctAnswers.getD []).isEmpty with
  | true =>
    rw [quiz]
    exact .inr (.inl rfl)
  | false =>
    iterate 6 refine .inr ?_
    rcases @checkAnswers_cases [] media.poll.answers with ⟨done, -⟩ | ⟨⟨message, refused⟩, -⟩
    · rw [done]
      cases correct : media.correctAnswers.getD [] with
      | nil =>
        rw [correct] at none_
        cases none_
      | cons first others =>
        refine ⟨"QUIZ_CORRECT_ANSWER_INVALID", ?_⟩
        change (correctOption media [] >>= _) = _
        rw [correctOption, if_pos quiz, correct]
        rfl
    · exact ⟨message, by rw [refused]; rfl⟩

theorem answerFits_iff {answer : InputAnswer} : answerFits answer = true ↔
    (answer.option ≠ [] ∧ answer.option.length ≤ 100) ∧
      answer.text.text ≠ [] ∧ answer.text.text.length ≤ 100 := by
  simp only [answerFits, Bool.and_eq_true, decide_eq_true_eq, and_assoc]

theorem processPoll_of_plain (plain : media.poll.quiz = false) :
    (WithinLimits media → processPoll now media =
        .ok (newPoll now media, media.poll.answers.map (newAnswer none))) ∧
      (¬ WithinLimits media → Refused (processPoll now media)) := by
  constructor
  · intro limits
    have fits : ∀ answer ∈ media.poll.answers, answerFits answer = true :=
      fun answer mem => answerFits_iff.mpr (limits.answers answer mem)
    rcases @checkAnswers_cases [] media.poll.answers with ⟨done, -⟩ | ⟨-, wrong, mem, why⟩
    · rw [processPoll]
      simp [plain, limits.question, limits.count, done, correctOption, require, bind, Except.bind]
    · rcases why with listed | unfit
      · cases listed
      · rw [fits wrong mem] at unfit
        cases unfit
  · intro beyond
    rw [processPoll]
    simp only [refused_require_bind]
    by_contra accepted
    simp only [not_or, Bool.not_eq_false] at accepted
    obtain ⟨-, -, -, question, count, -, checked⟩ := accepted
    apply beyond
    rcases @checkAnswers_cases [] media.poll.answers with ⟨-, all⟩ | ⟨⟨message, refused⟩, -⟩
    · rw [Bool.and_eq_true, decide_eq_true_eq, decide_eq_true_eq] at question count
      refine ⟨question, count, fun answer mem => answerFits_iff.mp (all answer mem).2, ?_⟩
      intro quiz
      rw [plain] at quiz
      cases quiz
    · exact absurd ⟨message, by rw [refused]; rfl⟩ checked

theorem ends_iff : (∀ moment ∈ endsAt now media.poll,
    now + 5 * SECOND < moment ∧ moment ≤ now + 600 * SECOND) ↔ DateNear now media.poll := by
  unfold endsAt DateNear
  cases given : media.poll.closePeriod.filter fun period => 5 < period ∧ period ≤ 600 with
  | some period =>
    obtain ⟨is, near⟩ := Option.filter_eq_some_iff.mp given
    rw [decide_eq_true_eq] at near
    refine iff_of_true ?_ fun none_ => absurd near (none_ period is)
    intro moment is
    cases is
    unfold SECOND
    omega
  | none =>
    have none_ : ∀ period ∈ media.poll.closePeriod, ¬ (5 < period ∧ period ≤ 600) := by
      intro period is near
      exact absurd (decide_eq_true near) (Option.filter_eq_none_iff.mp given period is)
    rw [forall_prop_of_true none_]
    simp only [Option.mem_def, Option.bind_eq_some_iff, Option.filter_eq_some_iff,
      decide_eq_true_eq]
    constructor
    · intro ends date is set low high
      have near := ends (date * SECOND) ⟨date, ⟨is, set⟩, if_pos ⟨low, high⟩⟩
      omega
    · rintro ends moment ⟨date, ⟨is, set⟩, taken⟩
      split at taken
      case isTrue small =>
        have near := ends date is set small.1 small.2
        cases taken
        omega
      case isFalse => cases taken

/-- A quiz is accepted exactly when it is not valid, and anything else when it is beyond the limits,
or its options differ and it does not end on a date that is near only up to whole days. -/
theorem accepts_exactly_iff (now : Int) (media : InputMediaPoll) : AcceptsExactly now media ↔
    if media.poll.quiz = true then ¬ Valid media
    else WithinLimits media → media.options.Nodup ∧ DateNear now media.poll := by
  cases quiz : media.poll.quiz with
  | true =>
    obtain ⟨message, refused⟩ := @quiz_refused now media quiz
    rw [AcceptsExactly, refused, if_pos rfl]
  | false =>
    rw [if_neg Bool.false_ne_true]
    by_cases limits : WithinLimits media
    · have rows : (media.poll.answers.map (newAnswer none)) = media.poll.answers.map fun answer =>
          ⟨answer.text.text, answer.option, marked media answer⟩ := by
        refine List.map_congr_left fun answer _ => ?_
        rw [newAnswer, marked, quiz]
        rfl
      rw [AcceptsExactly, (processPoll_of_plain quiz).1 limits, forall_prop_of_true limits, ← ends_iff]
      constructor
      · rintro ⟨valid, made⟩
        exact ⟨valid.distinct, made.ends⟩
      · rintro ⟨distinct, ends⟩
        refine ⟨⟨limits, distinct, fun other => ?_⟩, ⟨rfl, rfl, rows, ends⟩⟩
        rw [quiz] at other
        cases other
    · obtain ⟨message, refused⟩ := (@processPoll_of_plain now media quiz).2 limits
      rw [AcceptsExactly, refused]
      exact iff_of_true (fun valid => limits valid.limits) (absurd · limits)

end

private def twoOptions : InputMediaPoll where
  poll := {
    publicVoters := false
    multipleChoice := false
    quiz := true
    question := .plain ['?']
    answers := [⟨.plain ['a'], [0]⟩, ⟨.plain ['b'], [1]⟩]
    closePeriod := none
    closeDate := none }
  correctAnswers := some [[0]]
  solution := none

theorem quiz_not_created : ¬ ∀ now media, AcceptsExactly now media := by
  intro exactly
  have refused : processPoll 0 twoOptions =
      .error (.rpc 400 "QUIZ_CORRECT_ANSWER_INVALID") := by decide
  have valid : Valid twoOptions := by
    refine ⟨⟨by decide, by decide, by decide, fun _ _ given => ?_⟩, by decide, fun _ => ?_⟩
    · cases given
    · exact ⟨rfl, [0], by decide, rfl⟩
  have accepted := exactly 0 twoOptions
  rw [AcceptsExactly, refused] at accepted
  exact accepted valid

end Piltover.Polls
