import RecordApi.Proofs.Console.Markup

/-!
# Blocks of log steps

A program of log steps is traced: at each place, what is entered and what the console is asked to
print.  The trace tells what a run prints and whether it is broken off.  Whatever happens inside,
a run leaves the indentation as it found it, a message stands behind two blanks for each indented
block around it, and a timed block that is entered asks for its duration line once.
-/

namespace RecordApi
namespace Console

/-- A place in a program: the number of a step in its block, behind the place of the block. -/
abbrev Place := List Nat

/-- A step stands at a place of a program, inside so many indented blocks. -/
inductive Step.StandsAt : List Step → Place → Nat → Step → Prop
  | here {steps : List Step} {k : Nat} {step : Step}
      (hstep : steps[k]? = some step) :
      StandsAt steps [k] 0 step
  | indented {steps inner : List Step} {k : Nat} {place : Place} {depth : Nat} {step : Step}
      (hblock : steps[k]? = some (.indented inner)) (hinner : StandsAt inner place depth step) :
      StandsAt steps (k :: place) (depth + 1) step
  | timed {steps inner : List Step} {label : String} {k : Nat} {place : Place} {depth : Nat}
      {step : Step}
      (hblock : steps[k]? = some (.timed label inner)) (hinner : StandsAt inner place depth step) :
      StandsAt steps (k :: place) depth step

theorem Step.StandsAt.of_singleton
    {steps : List Step} {k depth : Nat} {rest : Place} {step found : Step}
    (h : Step.StandsAt [step] (0 :: rest) depth found) (hstep : steps[k]? = some step) :
    Step.StandsAt steps (k :: rest) depth found := by
  cases h with
  | here hfound =>
      cases hfound
      exact .here hstep
  | indented hblock hinner =>
      cases hblock
      exact .indented hstep hinner
  | timed hblock hinner =>
      cases hblock
      exact .timed hstep hinner

theorem Step.StandsAt.cons
    {steps : List Step} {k depth : Nat} {rest : Place} {found : Step} (step : Step)
    (h : Step.StandsAt steps (k :: rest) depth found) :
    Step.StandsAt (step :: steps) ((k + 1) :: rest) depth found := by
  cases h with
  | here hfound => exact .here hfound
  | indented hblock hinner => exact .indented hblock hinner
  | timed hblock hinner => exact .timed hblock hinner

/-- An entry that the console is asked to print, with the least level that is shown then. -/
structure Attempt where
  least : Int
  level : Level
  entry : Entry

namespace Attempt

def IsShown (attempt : Attempt) : Prop := attempt.least ≤ attempt.level.number

instance (attempt : Attempt) : Decidable attempt.IsShown :=
  inferInstanceAs (Decidable (_ ≤ _))

/-- What is printed on a console of so many columns. -/
def lines (width : Nat) (attempt : Attempt) : List String :=
  if attempt.IsShown then ((attempt.entry.lines? width).getD []).map printed else []

/-- The entry is shown, but its markup is broken. -/
def Fails (width : Nat) (attempt : Attempt) : Prop :=
  attempt.IsShown ∧ attempt.entry.lines? width = none

end Attempt

/-- What happens at a place while a program runs. -/
inductive Event where
  /-- A timed block is entered. -/
  | enters
  /-- A step attempts its entry. -/
  | logs (attempt : Attempt)
  /-- A timed block attempts the line that tells its duration. -/
  | tellsDuration (attempt : Attempt)

namespace Event

def attempt? : Event → Option Attempt
  | enters => none
  | logs attempt => some attempt
  | tellsDuration attempt => some attempt

def lines (width : Nat) (event : Event) : List String :=
  (event.attempt?.map (Attempt.lines width)).getD []

def Fails (width : Nat) (event : Event) : Prop :=
  ∃ attempt, event.attempt? = some attempt ∧ attempt.Fails width

def isEntry : Event → Bool
  | enters => true
  | _ => false

def isDuration : Event → Bool
  | tellsDuration _ => true
  | _ => false

end Event

/-- A message behind so many blanks: its sign, a blank and its text without tags. -/
def Entry.IsPadded (entry : Entry) (blank : Nat) (mark : Mark) (text : String) : Prop :=
  ∀ width, entry.lines? width = (Markup.plain? text).map fun cs =>
    wrap .fold width (blanks blank ++ mark.sign :: ' ' :: cs)

theorem isPadded_message (indent : Nat) (mark : Mark) (text : String) :
    (Entry.message indent mark text).IsPadded (2 * indent) mark text := by
  intro width
  change (Markup.plain? (Entry.messageMarkup indent mark text)).map (wrap .fold width) = _
  rw [plain?_messageMarkup, Option.map_map]
  rfl

def durationText (label : String) : String :=
  label ++ " " ++ Markup.styled "dim" "(T ms)"

/-- What happens at the place of a step inside so many indented blocks. -/
inductive Step.Does (depth : Nat) : Step → Event → Prop
  | message {mark : Mark} {text : String} {least : Int} {entry : Entry}
      (hpadded : entry.IsPadded (2 * depth) mark text) :
      Does depth (.message mark text) (.logs ⟨least, mark.level, entry⟩)
  | section {title : String} {least : Int} :
      Does depth (.section title) (.logs ⟨least, .info, .section title⟩)
  | grid {headers : List String} {rows : List (List String)} {least : Int} :
      Does depth (.grid headers rows)
        (.logs ⟨least, .info, .grid ⟨headers.map fun header => { header }, rows, true⟩⟩)
  | enters {label : String} {steps : List Step} :
      Does depth (.timed label steps) .enters
  | duration {label : String} {steps : List Step} {least : Int} {entry : Entry}
      (hpadded : entry.IsPadded (2 * depth) .info (durationText label)) :
      Does depth (.timed label steps) (.tellsDuration ⟨least, .info, entry⟩)

namespace Logger

def attempt (logger : Logger) (level : Level) (entry : Entry) : Attempt :=
  ⟨logger.least, level, entry⟩

/-! ## Traces -/

mutual

/-- What happens while a step at some place runs. -/
def trace (logger : Logger) (place : Place) : Step → List (Place × Event)
  | .message mark text =>
      [(place, .logs (logger.attempt mark.level (.message logger.indent mark text)))]
  | .section title => [(place, .logs (logger.attempt .info (.section title)))]
  | .grid headers rows =>
      [(place, .logs (logger.attempt .info
        (.grid ⟨headers.map fun header => { header }, rows, true⟩)))]
  | .setLevel _ => []
  | .indented steps => traceAll { logger with indent := logger.indent + 1 } place 0 steps
  | .timed label steps =>
      let inner := (runAll logger steps).1
      (place, .enters) :: traceAll logger place 0 steps ++
        [(place, .tellsDuration
          (inner.attempt .info (.message inner.indent .info (durationText label))))]

/-- What happens while steps run, of which the first one has some number in its block. -/
def traceAll (logger : Logger) (place : Place) (k : Nat) : List Step → List (Place × Event)
  | [] => []
  | step :: rest =>
      trace logger (place ++ [k]) step ++
        match run logger step with
        | (next, .completed) => traceAll next place (k + 1) rest
        | (_, .raised) => []

end

variable {logger : Logger} {place : Place} {step : Step} {steps : List Step}

/-- A trace tells what a run prints and whether it is broken off, and the run leaves the indentation
as it was. -/
structure Replays (logger : Logger) (events : List (Place × Event)) (result : Logger × Ending) :
    Prop where
  indent : result.1.indent = logger.indent
  width : result.1.width = logger.width
  output : result.1.output = logger.output ++ events.flatMap fun visit => visit.2.lines logger.width
  ending : result.2 = .raised ↔ ∃ visit ∈ events, visit.2.Fails logger.width

theorem Replays.refl (logger : Logger) (least : Int) :
    Replays logger [] ({ logger with least }, .completed) where
  indent := rfl
  width := rfl
  output := (List.append_nil _).symm
  ending := by simp

/-- Of two runs, one after the other, either may be broken off. -/
theorem Replays.append
    {first second : List (Place × Event)} {next last : Logger} {ending ending' : Ending}
    (h : Replays logger first (next, ending)) (h' : Replays next second (last, ending')) :
    Replays logger (first ++ second) (last, if ending' = .raised then .raised else ending) where
  indent := h'.indent.trans h.indent
  width := h'.width.trans h.width
  output := by
    rw [h'.output, h.output, h.width, List.flatMap_append, List.append_assoc]
  ending := by
    have hfirst := h.ending
    have hsecond := h'.ending
    rw [h.width] at hsecond
    simp only [List.mem_append, or_and_right, exists_or, ← hfirst, ← hsecond]
    cases ending' <;> simp

theorem Replays.entered
    {events : List (Place × Event)} {result : Logger × Ending} (place : Place)
    (h : Replays logger events result) :
    Replays logger ((place, .enters) :: events) result where
  indent := h.indent
  width := h.width
  output := h.output
  ending := by
    have hsilent : ¬ Event.enters.Fails logger.width := by
      intro hfails
      rcases hfails with ⟨_, hattempt, _⟩
      cases hattempt
    simp [h.ending, hsilent]

theorem replays_printAt
    {level : Level} {entry : Entry} {event : Event} (place : Place)
    (hevent : event.attempt? = some (logger.attempt level entry)) :
    Replays logger [(place, event)] (logger.printAt level entry) := by
  have hlines : event.lines logger.width = (logger.attempt level entry).lines logger.width := by
    unfold Event.lines
    rw [hevent]
    rfl
  have hfails : event.Fails logger.width ↔ (logger.attempt level entry).Fails logger.width := by
    unfold Event.Fails
    simp [hevent]
  have hshows : (logger.attempt level entry).IsShown ↔ logger.shows level = true :=
    decide_eq_true_iff.symm
  unfold printAt print
  constructor
  · split
    · cases entry.lines? logger.width <;> rfl
    · rfl
  · split
    · cases entry.lines? logger.width <;> rfl
    · rfl
  · rw [List.flatMap_singleton, hlines]
    unfold Attempt.lines
    simp only [hshows]
    split
    · change _ = _ ++ ((entry.lines? logger.width).getD []).map printed
      cases entry.lines? logger.width with
      | none => exact (List.append_nil _).symm
      | some lines => rfl
    · exact (List.append_nil _).symm
  · simp only [List.mem_singleton, exists_eq_left, hfails]
    unfold Attempt.Fails
    rw [hshows]
    change _ ↔ _ ∧ entry.lines? logger.width = none
    split
    · rename_i hshown
      cases entry.lines? logger.width <;> simp [hshown]
    · rename_i hshown
      simp [hshown]

mutual

theorem replays_run (logger : Logger) (place : Place) :
    ∀ step, Replays logger (trace logger place step) (run logger step)
  | .message mark text => by
      rw [trace, run]
      exact replays_printAt place rfl
  | .section title => by
      rw [trace, run]
      exact replays_printAt place rfl
  | .grid headers rows => by
      rw [trace, run]
      exact replays_printAt place rfl
  | .setLevel number => by
      rw [trace, run]
      exact Replays.refl logger number
  | .indented steps => by
      have hinner := replays_runAll { logger with indent := logger.indent + 1 } place 0 steps
      rw [trace, run]
      -- the indentation is taken back whether the block was completed or not
      exact ⟨congrArg (· - 1) hinner.indent, hinner.width, hinner.output, hinner.ending⟩
  | .timed label steps => by
      have hinner := replays_runAll logger place 0 steps
      rw [trace, run]
      cases hrun : runAll logger steps with
      | mk inner ending =>
          rw [hrun] at hinner
          have hlast : Replays inner [(place, .tellsDuration _)]
              (inner.printAt .info (.message inner.indent .info (durationText label))) :=
            replays_printAt place rfl
          exact (hinner.append hlast).entered place

theorem replays_runAll (logger : Logger) (place : Place) (k : Nat) :
    ∀ steps, Replays logger (traceAll logger place k steps) (runAll logger steps)
  | [] => by
      rw [traceAll, runAll]
      exact Replays.refl logger logger.least
  | step :: rest => by
      have hfirst := replays_run logger (place ++ [k]) step
      rw [traceAll, runAll]
      cases hrun : run logger step with
      | mk next ending =>
          rw [hrun] at hfirst
          cases ending with
          | completed =>
              have hboth := hfirst.append (replays_runAll next place (k + 1) rest)
              dsimp only at hboth ⊢
              cases hrest : runAll next rest with
              | mk last ending =>
                  rw [hrest] at hboth
                  cases ending <;> exact hboth
          | raised =>
              dsimp only
              rwa [List.append_nil]

end

/-! ## Places -/

/-- What happens below a place happens at the place of a step, which does it inside the blocks
around it. -/
def Below (logger : Logger) (place : Place) (steps : List Step) (k : Nat) (visit : Place × Event) :
    Prop :=
  ∃ j rest depth found, visit.1 = place ++ (k + j) :: rest ∧
    Step.StandsAt steps (j :: rest) depth found ∧ found.Does (logger.indent + depth) visit.2

mutual

theorem below_of_mem_trace (logger : Logger) (place : Place) :
    ∀ step, ∀ visit ∈ trace logger place step, ∃ rest depth found, visit.1 = place ++ rest ∧
      Step.StandsAt [step] (0 :: rest) depth found ∧ found.Does (logger.indent + depth) visit.2
  | .message mark text => by
      intro visit hvisit
      rw [trace, List.mem_singleton] at hvisit
      subst hvisit
      exact ⟨[], 0, _, (List.append_nil _).symm, .here rfl, .message (isPadded_message _ _ _)⟩
  | .section title => by
      intro visit hvisit
      rw [trace, List.mem_singleton] at hvisit
      subst hvisit
      exact ⟨[], 0, _, (List.append_nil _).symm, .here rfl, .section⟩
  | .grid headers rows => by
      intro visit hvisit
      rw [trace, List.mem_singleton] at hvisit
      subst hvisit
      exact ⟨[], 0, _, (List.append_nil _).symm, .here rfl, .grid⟩
  | .setLevel _ => by
      intro visit hvisit
      rw [trace] at hvisit
      cases hvisit
  | .indented steps => by
      intro visit hvisit
      rw [trace] at hvisit
      rcases below_of_mem_traceAll _ place 0 steps visit hvisit with
        ⟨j, rest, depth, found, hplace, hstands, hdoes⟩
      rw [Nat.zero_add] at hplace
      dsimp only at hdoes
      rw [Nat.add_assoc, Nat.add_comm 1] at hdoes
      exact ⟨j :: rest, depth + 1, found, hplace, .indented rfl hstands, hdoes⟩
  | .timed label steps => by
      intro visit hvisit
      rw [trace, List.mem_append, List.mem_cons, List.mem_singleton] at hvisit
      rcases hvisit with (rfl | hinner) | rfl
      · exact ⟨[], 0, _, (List.append_nil _).symm, .here rfl, .enters⟩
      · rcases below_of_mem_traceAll _ place 0 steps visit hinner with
          ⟨j, rest, depth, found, hplace, hstands, hdoes⟩
        rw [Nat.zero_add] at hplace
        exact ⟨j :: rest, depth, found, hplace, .timed rfl hstands, hdoes⟩
      · -- the duration line is indented as the block was when it was entered
        have hindent := (replays_runAll logger place 0 steps).indent
        refine ⟨[], 0, _, (List.append_nil _).symm, .here rfl, .duration ?_⟩
        rw [hindent]
        exact isPadded_message _ _ _

theorem below_of_mem_traceAll (logger : Logger) (place : Place) (k : Nat) :
    ∀ steps, ∀ visit ∈ traceAll logger place k steps, Below logger place steps k visit
  | [] => by
      intro visit hvisit
      rw [traceAll] at hvisit
      cases hvisit
  | step :: rest => by
      intro visit hvisit
      rw [traceAll, List.mem_append] at hvisit
      rcases hvisit with hfirst | hrest
      · rcases below_of_mem_trace logger (place ++ [k]) step visit hfirst with
          ⟨inner, depth, found, hplace, hstands, hdoes⟩
        refine ⟨0, inner, depth, found, ?_, hstands.of_singleton rfl, hdoes⟩
        rw [hplace, List.append_assoc]
        rfl
      · have hindent := (replays_run logger (place ++ [k]) step).indent
        cases hrun : run logger step with
        | mk next ending =>
            rw [hrun] at hrest hindent
            cases ending with
            | raised => cases hrest
            | completed =>
                rcases below_of_mem_traceAll next place (k + 1) rest visit hrest with
                  ⟨j, inner, depth, found, hplace, hstands, hdoes⟩
                dsimp only at hindent
                rw [hindent] at hdoes
                refine ⟨j + 1, inner, depth, found, ?_, hstands.cons step, hdoes⟩
                rw [hplace, Nat.add_assoc, Nat.add_comm 1]

end

/-! ## Durations -/

def entersAt (place : Place) (visit : Place × Event) : Bool :=
  visit.1 == place && visit.2.isEntry

def tellsDurationAt (place : Place) (visit : Place × Event) : Bool :=
  visit.1 == place && visit.2.isDuration

mutual

/-- Whatever happens inside, a block tells its duration as often as it is entered. -/
theorem countP_trace (logger : Logger) (place target : Place) :
    ∀ step, (trace logger place step).countP (tellsDurationAt target) =
      (trace logger place step).countP (entersAt target)
  | .message mark text => by simp [trace, tellsDurationAt, entersAt, Event.isEntry, Event.isDuration]
  | .section title => by simp [trace, tellsDurationAt, entersAt, Event.isEntry, Event.isDuration]
  | .grid headers rows => by
      simp [trace, tellsDurationAt, entersAt, Event.isEntry, Event.isDuration]
  | .setLevel _ => by simp [trace]
  | .indented steps => by
      rw [trace]
      exact countP_traceAll _ place target 0 steps
  | .timed label steps => by
      have hinner := countP_traceAll logger place target 0 steps
      rw [trace, List.cons_append, List.countP_cons, List.countP_cons, List.countP_append,
        List.countP_append, List.countP_singleton, List.countP_singleton, hinner]
      simp [tellsDurationAt, entersAt, Event.isEntry, Event.isDuration]

theorem countP_traceAll (logger : Logger) (place target : Place) (k : Nat) :
    ∀ steps, (traceAll logger place k steps).countP (tellsDurationAt target) =
      (traceAll logger place k steps).countP (entersAt target)
  | [] => by rw [traceAll]; rfl
  | step :: rest => by
      have hfirst := countP_trace logger (place ++ [k]) target step
      rw [traceAll, List.countP_append, List.countP_append, hfirst]
      cases run logger step with
      | mk next ending =>
          cases ending with
          | raised => rfl
          | completed => rw [countP_traceAll next place target (k + 1) rest]

end

mutual

/-- A place is entered once at most: different steps have different places, and those inside a block
lie behind its own. -/
theorem countP_entersAt_trace (logger : Logger) (place target : Place) :
    ∀ step, (trace logger place step).countP (entersAt target) ≤ 1
  | .message mark text => List.countP_le_length
  | .section title => List.countP_le_length
  | .grid headers rows => List.countP_le_length
  | .setLevel _ => by simp [trace]
  | .indented steps => by
      rw [trace]
      exact countP_entersAt_traceAll _ place target 0 steps
  | .timed label steps => by
      have hinner := countP_entersAt_traceAll logger place target 0 steps
      rw [trace, List.cons_append, List.countP_cons, List.countP_append, List.countP_singleton]
      by_cases htarget : place = target
      · have hnone : (traceAll logger place 0 steps).countP (entersAt target) = 0 := by
          rw [List.countP_eq_zero]
          intro visit hvisit hat
          rcases below_of_mem_traceAll logger place 0 steps visit hvisit with
            ⟨j, rest, _, _, hplace, _⟩
          simp [entersAt, hplace, htarget] at hat
        rw [hnone]
        simp [entersAt, Event.isEntry, htarget]
      · simpa [entersAt, Event.isEntry, htarget] using hinner

theorem countP_entersAt_traceAll (logger : Logger) (place target : Place) (k : Nat) :
    ∀ steps, (traceAll logger place k steps).countP (entersAt target) ≤ 1
  | [] => by simp [traceAll]
  | step :: rest => by
      have hfirst := countP_entersAt_trace logger (place ++ [k]) target step
      rw [traceAll, List.countP_append]
      cases run logger step with
      | mk next ending =>
          cases ending with
          | raised => exact hfirst
          | completed =>
              dsimp only
              have hrest := countP_entersAt_traceAll next place target (k + 1) rest
              by_cases hentered : ∃ visit ∈ trace logger (place ++ [k]) step, visit.1 = target
              · have hnone : (traceAll next place (k + 1) rest).countP (entersAt target) = 0 := by
                  rw [List.countP_eq_zero]
                  intro visit hvisit hat
                  rcases hentered with ⟨other, hother, htarget⟩
                  rcases below_of_mem_trace logger (place ++ [k]) step other hother with
                    ⟨_, _, _, hplace, _⟩
                  rcases below_of_mem_traceAll next place (k + 1) rest visit hvisit with
                    ⟨j, _, _, _, hplace', _⟩
                  rw [htarget] at hplace
                  simp [entersAt, hplace, hplace'] at hat
                  omega
                omega
              · have hnone : (trace logger (place ++ [k]) step).countP (entersAt target) = 0 := by
                  rw [List.countP_eq_zero]
                  intro visit hvisit hat
                  simp only [entersAt, Bool.and_eq_true, beq_iff_eq] at hat
                  exact hentered ⟨visit, hvisit, hat.1⟩
                omega

end

/-! ## Runs that are completed -/

/-- By induction on the steps: each of them is run, and none is broken off. -/
theorem exists_trace_of_completed
    (place : Place) (k : Nat) {j : Nat}
    (hcompleted : (runAll logger steps).2 = .completed) (hstep : steps[j]? = some step) :
    ∃ before, (run before step).2 = .completed ∧
      trace before (place ++ [k + j]) step ⊆ traceAll logger place k steps := by
  induction steps generalizing logger k j with
  | nil => cases hstep
  | cons first rest ih =>
      rw [runAll] at hcompleted
      rw [traceAll]
      cases hrun : run logger first with
      | mk next ending =>
          rw [hrun] at hcompleted
          cases ending with
          | raised => cases hcompleted
          | completed =>
              cases j with
              | zero =>
                  cases hstep
                  exact ⟨logger, congrArg Prod.snd hrun, List.subset_append_left _ _⟩
              | succ j =>
                  rcases ih (k + 1) hcompleted hstep with ⟨before, hbefore, hsubset⟩
                  rw [Nat.add_assoc, Nat.add_comm 1] at hsubset
                  exact ⟨before, hbefore, List.subset_append_of_subset_right _ hsubset⟩

/-- A program that is completed has entered all its timed blocks. -/
theorem enters_of_completed
    {depth : Nat} {label : String} {inner : List Step}
    (hstands : Step.StandsAt steps place depth (.timed label inner))
    (hcompleted : (runAll logger steps).2 = .completed) (base : Place) :
    (base ++ place, .enters) ∈ traceAll logger base 0 steps := by
  generalize htimed : Step.timed label inner = found at hstands
  induction hstands generalizing logger base with
  | @here _ k _ hstep =>
      subst htimed
      rcases exists_trace_of_completed base 0 hcompleted hstep with
        ⟨before, _, hsubset⟩
      rw [Nat.zero_add] at hsubset
      apply hsubset
      rw [trace]
      exact List.mem_cons_self
  | @indented _ block k rest _ _ hblock _ ih =>
      rcases exists_trace_of_completed base 0 hcompleted hblock with
        ⟨before, hbefore, hsubset⟩
      rw [Nat.zero_add] at hsubset
      rw [run] at hbefore
      have hinside := ih hbefore (base ++ [k]) htimed
      rw [List.append_assoc] at hinside
      apply hsubset
      rwa [trace]
  | @timed _ block name k rest _ _ hblock _ ih =>
      rcases exists_trace_of_completed base 0 hcompleted hblock with
        ⟨before, hbefore, hsubset⟩
      rw [Nat.zero_add] at hsubset
      have hinner : (runAll before block).2 = .completed := by
        rw [run] at hbefore
        dsimp only at hbefore
        split at hbefore
        · cases hbefore
        · exact hbefore
      have hinside := ih hinner (base ++ [k]) htimed
      rw [List.append_assoc] at hinside
      apply hsubset
      rw [trace]
      exact List.mem_append_left _ (List.mem_cons_of_mem _ hinside)

/-- Blocks are balanced.  Whether a program is completed or broken off at some depth, it leaves the
indentation as it was; what happens at a place is what its step does there, with two blanks in front
of a message for each indented block around it, those that were open before included; and a timed
block that is entered attempts its duration line once.  The trace tells what is printed and whether
the program is broken off, and a program that is completed has entered all its timed blocks. -/
theorem runAll_balanced (logger : Logger) (steps : List Step) :
    (runAll logger steps).1.indent = logger.indent ∧
      (∀ place event, (place, event) ∈ traceAll logger [] 0 steps →
        ∃ depth step, Step.StandsAt steps place depth step ∧
          step.Does (logger.indent + depth) event) ∧
      (∀ place, (place, .enters) ∈ traceAll logger [] 0 steps →
        (traceAll logger [] 0 steps).countP (tellsDurationAt place) = 1) ∧
      (runAll logger steps).1.output = logger.output ++
        (traceAll logger [] 0 steps).flatMap (fun visit => visit.2.lines logger.width) ∧
      ((runAll logger steps).2 = .raised ↔
        ∃ visit ∈ traceAll logger [] 0 steps, visit.2.Fails logger.width) ∧
      ((runAll logger steps).2 = .completed → ∀ place depth label inner,
        Step.StandsAt steps place depth (.timed label inner) →
          (place, .enters) ∈ traceAll logger [] 0 steps) := by
  have hreplays := replays_runAll logger [] 0 steps
  refine ⟨hreplays.indent, ?_, ?_, hreplays.output, hreplays.ending, ?_⟩
  · intro place event hmem
    rcases below_of_mem_traceAll logger [] 0 steps _ hmem with
      ⟨j, rest, depth, step, hplace, hstands, hdoes⟩
    rw [Nat.zero_add] at hplace
    dsimp only [List.nil_append] at hplace
    rw [hplace]
    exact ⟨depth, step, hstands, hdoes⟩
  · intro place hentered
    have hmost := countP_entersAt_traceAll logger [] place 0 steps
    have hleast : 0 < (traceAll logger [] 0 steps).countP (entersAt place) :=
      List.countP_pos_iff.mpr ⟨_, hentered, by simp [entersAt, Event.isEntry]⟩
    rw [countP_traceAll]
    omega
  · intro hcompleted place depth label inner hstands
    exact enters_of_completed hstands hcompleted []

/-- A closing tag of no style breaks off two blocks, which are both left in order. -/
example :
    let (logger, ending) :=
      runAll {} [.indented [.timed "load" [.message .info "[/x]"], .message .info "next"]]
    ending = .raised ∧ logger.indent = 0 ∧ logger.output = ["  • load (T ms)"] := by
  decide +kernel

end Logger
end Console
end RecordApi
