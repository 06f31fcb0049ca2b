import Chip8.Ticker

/-! # The end of the ticker

Host and thread agree on the end of the thread over a channel for one request. `Phase` is
how far they have come, and `Phase.next?` their protocol as an automaton; the ticker moves
as its phase does (`Phase.step?_ticker`), so every interleaving is a path of the automaton.
What holds of the phases is then carried over whole schedules by `Clock.run_phase`, and what
holds once the thread has left its loop by `Clock.run_of_not_alive`.
-/

namespace Chip8

namespace Ticker

/-! ## Phases -/

/-- How far the end of the thread has come, and whether the host has let go by then. -/
inductive Phase where
  /-- The thread is in its loop, and nobody has asked it to leave. -/
  | running
  /-- The request is in the channel, and the host waits. -/
  | asked (dropped : Bool)
  /-- The thread has left its loop, and the host still waits. -/
  | left (dropped : Bool)
  /-- The host has seen the end of the thread. -/
  | ended (dropped : Bool)
  /-- The host stops the thread although it has seen its end. -/
  | askedAgain (dropped : Bool)
  deriving DecidableEq, Repr

def Action.asks : Action → Bool
  | .request => true
  | .drop => true
  | _ => false

namespace Phase

def ticker : Phase → Ticker
  | .running => .spawn
  | .asked dropped => ⟨false, 1, true, true, true, dropped⟩
  | .left dropped => ⟨false, 0, true, false, true, dropped⟩
  | .ended dropped => ⟨false, 0, false, false, false, dropped⟩
  | .askedAgain dropped => ⟨false, 0, false, false, true, dropped⟩

def next? : Phase → Action → Option Phase
  | .running, .tick => some .running
  | .running, .request => some (.asked false)
  | .running, .drop => some (.asked true)
  | .asked dropped, .tick => some (.asked dropped)
  | .asked dropped, .leave => some (.left dropped)
  | .left dropped, .join => some (.ended dropped)
  | .ended false, .request => some (.askedAgain false)
  | .ended false, .drop => some (.askedAgain true)
  | .askedAgain dropped, .join => some (.ended dropped)
  | _, _ => none

def begun : Phase → Bool
  | .running => false
  | _ => true

def returned : Phase → Bool
  | .ended _ => true
  | .askedAgain _ => true
  | _ => false

/-- The ticker moves as its phase does. -/
theorem step?_ticker (phase : Phase) (action : Action) :
    phase.ticker.step? action = (phase.next? action).map ticker := by
  cases phase with
  | running => cases action <;> rfl
  | asked dropped | left dropped | ended dropped | askedAgain dropped =>
      cases dropped <;> cases action <;> rfl

/-- A phase knows whether it was asked for the end and whether the end was seen. -/
theorem next?_spec {phase next : Phase} {action : Action}
    (moves : phase.next? action = some next) :
    next.begun = (phase.begun || action.asks) ∧
      next.returned = (phase.returned || action == .join) := by
  cases phase with
  | running => cases action <;> cases moves <;> exact ⟨rfl, rfl⟩
  | asked dropped | left dropped | ended dropped | askedAgain dropped =>
      cases dropped <;> cases action <;> cases moves <;> exact ⟨rfl, rfl⟩

end Phase

/-- A thread that has left its loop takes no action any more and never comes back to it. -/
theorem step?_of_not_alive {ticker next : Ticker} {action : Action}
    (left : ticker.alive = false) (step : ticker.step? action = some next) :
    next.alive = false ∧ action ≠ .tick ∧ action ≠ .leave := by
  cases action with
  | tick | leave => simp [step?, left] at step
  | request | drop =>
      simp only [step?, signal?] at step
      refine ⟨?_, nofun, nofun⟩
      split at step
      · cases step
      · split at step
        · split at step
          · cases step
            exact left
          · cases step
        · cases step
          exact left
  | join =>
      simp only [step?] at step
      refine ⟨?_, nofun, nofun⟩
      split at step
      · cases step
        exact left
      · cases step

end Ticker

namespace Clock

/-! ## One action -/

/-- What an action that can be taken finds and leaves. -/
inductive Moves (clock : Clock) : Action → Clock → Prop where
  | thread (action : Ticker.Action) (ticker : Ticker)
      (taken : clock.ticker.step? action = some ticker) :
      Moves clock (.thread action)
        ⟨if action = .tick then clock.timers.tick else clock.timers, ticker⟩
  | setDelay (value : UInt8) (free : clock.ticker.stopping = false) :
      Moves clock (.setDelay value) { clock with timers.delay := value }
  | setSound (value : UInt8) (free : clock.ticker.stopping = false) :
      Moves clock (.setSound value) { clock with timers.sound := value }

theorem moves_of_step? {clock next : Clock} {action : Action}
    (step : clock.step? action = some next) : clock.Moves action next := by
  cases action with
  | thread action =>
      obtain ⟨ticker, taken, rfl⟩ := Option.map_eq_some_iff.mp step
      exact .thread action ticker taken
  | setDelay value =>
      simp only [step?] at step
      split at step
      · cases step
      · cases step
        exact .setDelay value (Bool.eq_false_iff.mpr ‹_›)
  | setSound value =>
      simp only [step?] at step
      split at step
      · cases step
      · cases step
        exact .setSound value (Bool.eq_false_iff.mpr ‹_›)

theorem run?_cons_eq_some_iff {clock final : Clock} {action : Action} {rest : List Action} :
    clock.run? (action :: rest) = some final ↔
      ∃ next, clock.step? action = some next ∧ next.run? rest = some final :=
  Option.bind_eq_some_iff

/-! ## Schedules -/

def Action.asks : Action → Bool
  | .thread action => action.asks
  | _ => false

/-- The phase after a schedule tells whether the host has begun to stop the thread in it and
whether it has seen the end. -/
theorem run_phase {timers : Timers} {phase : Ticker.Phase} {schedule : List Action}
    {clock : Clock} (run : run? ⟨timers, phase.ticker⟩ schedule = some clock) :
    ∃ later : Ticker.Phase, clock.ticker = later.ticker ∧
      later.begun = (phase.begun || schedule.any Action.asks) ∧
      later.returned = (phase.returned || schedule.contains (.thread .join)) := by
  induction schedule generalizing timers phase with
  | nil =>
      cases run
      exact ⟨phase, rfl, by simp, by simp⟩
  | cons action rest ih =>
      obtain ⟨next, step, later⟩ := run?_cons_eq_some_iff.mp run
      cases moves_of_step? step with
      | thread action ticker taken =>
          rw [Ticker.Phase.step?_ticker] at taken
          obtain ⟨moved, moves, rfl⟩ := Option.map_eq_some_iff.mp taken
          obtain ⟨begun, returned⟩ := Ticker.Phase.next?_spec moves
          obtain ⟨last, same, begun', returned'⟩ := ih later
          refine ⟨last, same, ?_, ?_⟩
          · rw [begun', begun, List.any_cons, Bool.or_assoc]
            rfl
          · rw [returned', returned, List.contains_cons, Bool.or_assoc]
            cases action <;> rfl
      | setDelay value free | setSound value free =>
          obtain ⟨last, same, begun, returned⟩ := ih later
          exact ⟨last, same, begun, returned⟩

/-! ## After the end -/

/-- The timers after what the host alone has written to them in a schedule. -/
def written (timers : Timers) : List Action → Timers
  | [] => timers
  | .setDelay value :: rest => written { timers with delay := value } rest
  | .setSound value :: rest => written { timers with sound := value } rest
  | .thread _ :: rest => written timers rest

/-- Once the thread has left its loop there is no tick, and the timers follow the host. -/
theorem run_of_not_alive {clock final : Clock} {schedule : List Action}
    (left : clock.ticker.alive = false) (run : clock.run? schedule = some final) :
    final.ticker.alive = false ∧ .thread .tick ∉ schedule ∧ .thread .leave ∉ schedule ∧
      final.timers = written clock.timers schedule := by
  induction schedule generalizing clock with
  | nil =>
      cases run
      exact ⟨left, List.not_mem_nil, List.not_mem_nil, rfl⟩
  | cons action rest ih =>
      obtain ⟨next, step, later⟩ := run?_cons_eq_some_iff.mp run
      cases moves_of_step? step with
      | thread action ticker taken =>
          obtain ⟨still, notTick, notLeave⟩ := Ticker.step?_of_not_alive left taken
          obtain ⟨dead, noTick, noLeave, timers⟩ := ih still later
          simp only [if_neg notTick] at timers
          refine ⟨dead, ?_, ?_, timers⟩
          · simp [notTick.symm, noTick]
          · simp [notLeave.symm, noLeave]
      | setDelay value free | setSound value free =>
          obtain ⟨dead, noTick, noLeave, timers⟩ := ih (by exact left) later
          exact ⟨dead, by simp [noTick], by simp [noLeave], timers⟩

/-- The host neither waits for the thread nor has it let go of the ticker. -/
def Free (clock : Clock) : Prop :=
  clock.ticker.stopping = false ∧ clock.ticker.dropped = false

/-- A clock whose thread has ended for good, as its host has seen. Another stop or the
letting go is over at once, with nothing in between, and the run goes on as without it. -/
structure Over (clock : Clock) : Prop where
  isRunning : clock.ticker.isRunning = false
  alive : clock.ticker.alive = false
  later : ∀ schedule final, clock.run? schedule = some final →
    .thread .tick ∉ schedule ∧ final.timers = written clock.timers schedule ∧
      final.ticker.alive = false ∧ final.ticker.isRunning = false
  again : clock.Free → ∀ action rest,
    clock.run? (.thread .request :: action :: rest) =
      if action = .thread .join then clock.run? rest else none
  drop : clock.Free → ∀ action rest,
    clock.run? (.thread .drop :: action :: rest) =
      if action = .thread .join then { clock with ticker.dropped := true }.run? rest else none

/-- What holds of a clock after a schedule that began with the start of its thread. -/
structure Orderly (schedule : List Action) (clock : Clock) : Prop where
  /-- The channel never holds more than one request. -/
  queued : clock.ticker.queued ≤ 1
  /-- The host is not blocked when it begins to stop the thread, and the stop can be
  brought to its end. -/
  stops : clock.Free → ∃ answer,
    clock.run? (.thread .request :: answer ++ [.thread .join]) =
      some { clock with ticker := clock.ticker.stop }
  drops : clock.Free → ∃ answer,
    clock.run? (.thread .drop :: answer ++ [.thread .join]) =
      some { clock with ticker := clock.ticker.release }
  /-- A host that waits goes on sooner or later: the thread can leave, or the host go on. -/
  waits : clock.ticker.stopping = true →
    (clock.step? (.thread .leave)).isSome ∨ (clock.step? (.thread .join)).isSome
  isRunning : .thread .request ∉ schedule → .thread .drop ∉ schedule →
    clock.ticker.isRunning = true
  /-- A host that has begun to stop the thread and waits no more has seen its end. -/
  returns : clock.ticker.stopping = false →
    .thread .request ∈ schedule ∨ .thread .drop ∈ schedule → .thread .join ∈ schedule
  ended : .thread .join ∈ schedule → clock.Over

/-! ## Phase by phase -/

/-- After a further stop has begun, nothing can happen but its return. -/
theorem run?_again (timers : Timers) (dropped : Bool) (action : Action) (rest : List Action) :
    run? ⟨timers, (Ticker.Phase.askedAgain dropped).ticker⟩ (action :: rest) =
      if action = .thread .join then
        run? ⟨timers, (Ticker.Phase.ended dropped).ticker⟩ rest
      else none := by
  cases action with
  | thread move => cases move <;> rfl
  | setDelay value | setSound value => rfl

variable {timers : Timers} {phase : Ticker.Phase}

theorem phase_of_free (free : Free ⟨timers, phase.ticker⟩) :
    phase = .running ∨ phase = .ended false := by
  obtain ⟨waitsNot, held⟩ := free
  cases phase with
  | running => exact Or.inl rfl
  | ended dropped =>
      cases held
      exact Or.inr rfl
  | asked dropped | left dropped | askedAgain dropped => cases waitsNot

theorem queued_ticker_le (phase : Ticker.Phase) : phase.ticker.queued ≤ 1 := by
  cases phase with
  | asked dropped => exact Nat.le_refl 1
  | running | left dropped | ended dropped | askedAgain dropped => exact Nat.zero_le 1

theorem isRunning_ticker (phase : Ticker.Phase) :
    phase.ticker.isRunning = !phase.returned := by
  cases phase <;> rfl

theorem alive_of_returned (returned : phase.returned = true) : phase.ticker.alive = false := by
  cases phase with
  | ended dropped | askedAgain dropped => rfl
  | running | asked dropped | left dropped => cases returned

theorem not_returned_of_not_begun (fresh : phase.begun = false) : phase.returned = false := by
  cases phase with
  | running => rfl
  | asked dropped | left dropped | ended dropped | askedAgain dropped => cases fresh

theorem returned_of_begun (begun : phase.begun = true) (waitsNot : phase.ticker.stopping = false) :
    phase.returned = true := by
  cases phase with
  | ended dropped => rfl
  | running => cases begun
  | asked dropped | left dropped | askedAgain dropped => cases waitsNot

theorem over_of_returned (returned : phase.returned = true) : Over ⟨timers, phase.ticker⟩ where
  isRunning := by rw [isRunning_ticker, returned, Bool.not_true]
  alive := alive_of_returned returned
  later := by
    intro schedule final run
    obtain ⟨dead, noTick, -, followed⟩ := run_of_not_alive (alive_of_returned returned) run
    obtain ⟨last, same, -, still⟩ := run_phase run
    rw [returned, Bool.true_or] at still
    refine ⟨noTick, followed, dead, ?_⟩
    rw [same, isRunning_ticker, still, Bool.not_true]
  again := by
    intro free action rest
    rcases phase_of_free free with rfl | rfl
    · cases returned
    · exact run?_again timers false action rest
  drop := by
    intro free action rest
    rcases phase_of_free free with rfl | rfl
    · cases returned
    · exact run?_again timers true action rest

/-! ## The whole protocol -/

theorem any_asks_iff (schedule : List Action) :
    schedule.any Action.asks = true ↔
      .thread .request ∈ schedule ∨ .thread .drop ∈ schedule := by
  rw [List.any_eq_true]
  constructor
  · rintro ⟨action, listed, asks⟩
    cases action with
    | thread move =>
        cases move with
        | request => exact Or.inl listed
        | drop => exact Or.inr listed
        | tick | leave | join => cases asks
    | setDelay value | setSound value => cases asks
  · rintro (listed | listed)
    · exact ⟨_, listed, rfl⟩
    · exact ⟨_, listed, rfl⟩

/-- Whatever the interleaving of the thread with its host, who sets the timers, stops the
thread again and again and at last lets go of it: no request blocks, a host that waits goes
on, and once a first stop has returned nobody but the host changes the timers, and nothing
else changes at all. -/
theorem shutdown_is_orderly {timers : Timers} {schedule : List Action} {clock : Clock}
    (run : run? ⟨timers, .spawn⟩ schedule = some clock) : clock.Orderly schedule := by
  obtain ⟨phase, same, begun, returned⟩ :=
    run_phase (show run? ⟨timers, Ticker.Phase.running.ticker⟩ schedule = some clock from run)
  change phase.begun = schedule.any Action.asks at begun
  change phase.returned = schedule.contains (.thread .join) at returned
  obtain ⟨timers, ticker⟩ := clock
  cases same
  refine ⟨queued_ticker_le phase, ?_, ?_, ?_, ?_, ?_, ?_⟩
  · intro free
    rcases phase_of_free free with rfl | rfl
    · exact ⟨[.thread .leave], rfl⟩
    · exact ⟨[], rfl⟩
  · intro free
    rcases phase_of_free free with rfl | rfl
    · exact ⟨[.thread .leave], rfl⟩
    · exact ⟨[], rfl⟩
  · intro stopping
    cases phase with
    | asked dropped => exact Or.inl rfl
    | left dropped | askedAgain dropped => exact Or.inr rfl
    | running | ended dropped => cases stopping
  · intro noRequest noDrop
    have fresh : phase.begun = false := by
      rw [begun, Bool.eq_false_iff]
      exact fun asks => ((any_asks_iff schedule).mp asks).elim noRequest noDrop
    show phase.ticker.isRunning = true
    rw [isRunning_ticker, not_returned_of_not_begun fresh, Bool.not_false]
  · intro waitsNot asks
    rw [(any_asks_iff schedule).mpr asks] at begun
    rw [returned_of_begun begun waitsNot] at returned
    exact List.contains_iff_mem.mp returned.symm
  · intro joined
    apply over_of_returned
    rw [returned]
    exact List.contains_iff_mem.mpr joined

def lateAnswer : List Action :=
  [.setDelay 5, .thread .tick, .thread .request, .thread .tick, .thread .leave, .thread .join]

def lateEnd : Clock :=
  ⟨⟨3, 0⟩, (Ticker.Phase.ended false).ticker⟩

theorem late_answer_is_orderly :
    run? ⟨.zero, .spawn⟩ lateAnswer = some lateEnd ∧ lateEnd.Orderly lateAnswer ∧
    lateEnd.ticker.isRunning = false ∧
    lateEnd.run? [.thread .request, .thread .join, .setSound 2] =
      some { lateEnd with timers := ⟨3, 2⟩ } ∧
    lateEnd.run? [.thread .drop, .thread .tick] = none := by
  have run : run? ⟨.zero, .spawn⟩ lateAnswer = some lateEnd := by decide
  have orderly := shutdown_is_orderly run
  have closed := orderly.ended (by decide)
  have free : lateEnd.Free := ⟨rfl, rfl⟩
  exact ⟨run, orderly, closed.isRunning, closed.again free _ _, closed.drop free _ _⟩

end Clock

end Chip8
